import SdkEvidence.Text.Blank
import SdkEvidence.Text.Line
import SdkEvidence.Text.Search
import SdkEvidence.Yaml.Value

/-!
# The file apktool.yml

A decompiler takes the version and the platform levels out of the manifest and writes them to a
YAML file of its own. A file that cannot be used counts as if it were missing.
-/
namespace SdkEvidence.Manifest

/-- What apktool.yml says, as far as it says it. -/
structure ApktoolFile where
  version : Option String
  versionName : Option String
  versionCode : Option String
  minSdk : Option String
  targetSdk : Option String
  deriving DecidableEq, Repr

namespace ApktoolFile

/-- A file that says nothing. -/
def silent : ApktoolFile :=
  { version := none, versionName := none, versionCode := none, minSdk := none, targetSdk := none }

/-- The text of a scalar; a number reads the same bare and quoted as far as its text does. -/
def scalarText? : Yaml.Value → Option String
  | .string s => some s
  | .number n => some n.text
  | .bool true => some "true"
  | .bool false => some "false"
  | _ => none

/-- The text of a scalar that is not blank, without the blanks around it. -/
def said? (value : Option Yaml.Value) : Option String :=
  ((value.bind scalarText?).map Text.trimmed).bind fun text =>
    if text = "" then none else some text

/-- The file without lines that start with a tag of the tool. -/
def withoutTags (text : List Char) : List Char :=
  ((Text.lines text).filter fun line => !(['!', '!'].isPrefixOf (Text.trimStart line))).flatMap
    fun line => line ++ ['\n']

/-- The values of a record with two fields, if it is there. -/
def pair (document : Yaml.Document) (depth : Nat) (first second : String)
    (node : Option Yaml.Node) : Yaml.Following (Option Yaml.Value × Option Yaml.Value) := do
  let record ← document.field? (document.fields [first, second]) node
  match record with
  | some [a, b] =>
      pure (← document.field? (document.value depth) a, ← document.field? (document.value depth) b)
  | _ => pure (none, none)

/-- What a document says. -/
def ofDocument (document : Yaml.Document) : Yaml.Following ApktoolFile := do
  match document.content with
  | none => pure silent
  | some node =>
      match ← document.fields ["version", "sdkInfo", "versionInfo"] node with
      | [version, sdk, info] =>
          let depth := Yaml.Document.depthLimit
          let version ← document.field? (document.value (depth - 1)) version
          let (min, target) ← pair document (depth - 2) "minSdkVersion" "targetSdkVersion" sdk
          let (code, name) ← pair document (depth - 2) "versionCode" "versionName" info
          pure
            { version := said? version, versionName := said? name, versionCode := said? code
              minSdk := said? min, targetSdk := said? target }
      | _ => failure

/-- What a text says. -/
def read (text : String) : ApktoolFile :=
  let found := do
    let document ← Yaml.Document.read? (withoutTags text.toList)
    let (file, _) ← (ofDocument document).run 0
    some file
  found.getD silent

end ApktoolFile
end SdkEvidence.Manifest
