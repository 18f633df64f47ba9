import SdkEvidence.Manifest.Tag

/-!
# Labels

The label of an application is a text, or refers to a string resource by its name. Other
references are not followed.
-/
namespace SdkEvidence.Manifest

/-- The start of a reference to a string resource. -/
def stringReference : List Char := "@string/".toList

/-- The value of a string resource that stands here: the opening of the tag with the name as its
first attribute, the rest of the tag, a text without tags, and the closing tag. -/
def stringAt? (name : List Char) (text : List Char) : Option (List Char) := do
  let rest ← Text.dropLead? "<string".toList text
  let gap := rest.takeWhile Text.isBlank
  if gap.isEmpty then none
  else
    let rest ← Text.dropLead? ("name=\"".toList ++ name ++ ['"']) (rest.drop gap.length)
    let body ← bodyBeforeClose? rest
    let rest := rest.drop (body.length + 1)
    let value := rest.takeWhile (· != '<')
    let _ ← Text.dropLead? "</string>".toList (rest.drop value.length)
    some value

/-- The value of the first string resource of a name. -/
def stringValue? (name : List Char) : List Char → Option (List Char)
  | [] => none
  | c :: rest =>
      match stringAt? name (c :: rest) with
      | some value => some value
      | none => stringValue? name rest

/-- The text of a label, given the file of string resources if there is one. A resource that is
blank gives no text. -/
def labelText? (label : String) (strings : Option String) : Option String :=
  match Text.dropLead? stringReference label.toList with
  | some name => do
      let value ← stringValue? name (← strings).toList
      let value := Text.trim value
      if value.isEmpty then none else some (String.ofList value)
  | none => if label.toList.head? = some '@' then none else some label

end SdkEvidence.Manifest
