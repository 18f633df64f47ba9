import SdkEvidence.Dictionary
import SdkEvidence.FileSystem.Walk
import SdkEvidence.Text.Search
import SdkEvidence.Tree.Area

/-!
# Locales

A resource directory for a locale is named `values-` and a qualifier: two or three small letters
with an optional region, or `b+` and a tag. More qualifiers may follow after a hyphen.
-/
namespace SdkEvidence.Locale

/-- A small letter. -/
def isSmall (c : Char) : Bool := 'a' ≤ c && c ≤ 'z'

/-- A capital letter. -/
def isCapital (c : Char) : Bool := 'A' ≤ c && c ≤ 'Z'

/-- Whether the character may stand in a tag. -/
def isTagChar (c : Char) : Bool :=
  isSmall c || isCapital c || c.isDigit || c == '+'

/-- Whether the qualifier may end here: at the end of the name, or before a hyphen with more
qualifiers, which hold no line feed. -/
def atEnd : List Char → Bool
  | [] => true
  | '-' :: rest => !rest.isEmpty && !rest.contains '\n'
  | _ => false

/-- The region that stands here: a hyphen, an `r` and two capital letters. -/
def region? : List Char → Option (List Char)
  | '-' :: 'r' :: a :: b :: rest =>
      if isCapital a && isCapital b && atEnd rest then some ['-', 'r', a, b] else none
  | _ => none

/-- The language with its region that a text starts with. -/
def language? (text : List Char) : Option (List Char) :=
  let letters := (text.take 3).takeWhile isSmall
  let rest := text.drop letters.length
  if letters.length < 2 then none
  else
    match region? rest with
    | some region => some (letters ++ region)
    | none => if atEnd rest then some letters else none

/-- The tag that a text starts with. -/
def tag? (text : List Char) : Option (List Char) :=
  match text with
  | 'b' :: '+' :: rest =>
      let tag := rest.takeWhile isTagChar
      if !tag.isEmpty && atEnd (rest.drop tag.length) then some ('b' :: '+' :: tag) else none
  | _ => none

/-- Qualifiers that look like languages and are none. -/
def notLocales : List String := ["car"]

/-- The locale that a directory is for, by its name. -/
def ofDirectory? (name : String) : Option String := do
  let qualifier ← Text.dropLead? "values-".toList name.toList
  let locale := String.ofList (← (language? qualifier).orElse fun _ => tag? qualifier)
  if notLocales.contains locale then none else some locale

/-- The locales of a decompiled tree, sorted. -/
def collect (fs : FileSystem) (decompiled : PathText) : List String :=
  sortedDistinct ((fs.entriesAt (Path.join decompiled TreeArea.resourceDirectory)).filterMap
    fun (name, node) => if node = .directory then ofDirectory? name else none)

end SdkEvidence.Locale
