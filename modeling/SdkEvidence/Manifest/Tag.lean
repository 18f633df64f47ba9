import SdkEvidence.Text.Blank
import SdkEvidence.Text.Search
import SdkEvidence.Text.Word

/-!
# Tags and attributes

A manifest is searched for the openings of its tags. What stands between the name of a tag and the
next closing bracket is its body, in which attributes are a name, an equals sign and a quoted
value.
-/
namespace SdkEvidence.Manifest

/-- Whether a word may not go on here. -/
def atWordEnd : List Char → Bool
  | [] => true
  | c :: _ => !Text.isWord c

/-- What stands before the next closing bracket, if there is one. -/
def bodyBeforeClose? (text : List Char) : Option (List Char) :=
  let body := text.takeWhile (· != '>')
  if (text.drop body.length).isEmpty then none else some body

/-- The body of a tag that opens here with one of the given starts, the first that fits, and the
number of characters up to the end of the tag. -/
def tagAt? (text : List Char) : List (List Char) → Option (List Char × Nat)
  | [] => none
  | opening :: others =>
      match Text.dropLead? opening text with
      | none => tagAt? text others
      | some rest =>
          if atWordEnd rest then
            (bodyBeforeClose? rest).map fun body => (body, opening.length + body.length + 1)
          else tagAt? text others

/-- The bodies of all tags, where `skip` characters belong to the last one. -/
def bodiesFrom (openings : List (List Char)) (skip : Nat) : List Char → List (List Char)
  | [] => []
  | c :: rest =>
      match skip with
      | skip + 1 => bodiesFrom openings skip rest
      | 0 =>
          match tagAt? (c :: rest) openings with
          | some (body, width) => body :: bodiesFrom openings (width - 1) rest
          | none => bodiesFrom openings 0 rest

/-- The bodies of all tags that open with one of the given starts, in order. -/
def bodies (openings : List String) (text : List Char) : List (List Char) :=
  bodiesFrom (openings.map String.toList) 0 text

/-- The body of the first tag that opens so. -/
def firstBody? (openings : List String) (text : List Char) : Option (List Char) :=
  (bodies openings text).head?

/-- An attribute: its name and its value. -/
abbrev Attribute := String × String

/-- Whether the character may stand in the name of an attribute. -/
def isAttributeChar (c : Char) : Bool :=
  Text.isWord c || c == ':' || c == '.' || c == '-'

/-- The value that follows the name of an attribute, and the number of characters up to its end. -/
def valueAfter? (text : List Char) : Option (List Char × Nat) :=
  let beforeSign := text.takeWhile Text.isBlank
  match text.drop beforeSign.length with
  | '=' :: rest =>
      let beforeQuote := rest.takeWhile Text.isBlank
      match rest.drop beforeQuote.length with
      | '"' :: rest =>
          let value := rest.takeWhile (· != '"')
          if (rest.drop value.length).isEmpty then none
          else some (value, beforeSign.length + beforeQuote.length + value.length + 3)
      | _ => none
  | _ => none

/-- The attributes of a body, where `skip` characters were read before. -/
def attributesFrom (skip : Nat) : List Char → List Attribute
  | [] => []
  | c :: rest =>
      match skip with
      | skip + 1 => attributesFrom skip rest
      | 0 =>
          let name := (c :: rest).takeWhile isAttributeChar
          if name.isEmpty then attributesFrom 0 rest
          else
            match valueAfter? ((c :: rest).drop name.length) with
            | some (value, width) =>
                (String.ofList name, String.ofList value)
                  :: attributesFrom (name.length + width - 1) rest
            | none => attributesFrom (name.length - 1) rest

/-- The attributes of a body, in order. -/
def attributes (body : List Char) : List Attribute :=
  attributesFrom 0 body

/-- The value of an attribute; where a name is repeated, the last one counts. -/
def valueOf? (attributes : List Attribute) (name : String) : Option String :=
  attributes.reverse.lookup name

end SdkEvidence.Manifest
