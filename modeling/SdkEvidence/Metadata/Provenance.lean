import SdkEvidence.Dictionary
import SdkEvidence.FileSystem.Content
import SdkEvidence.Json.Reader
import SdkEvidence.Text.Blank
import SdkEvidence.Text.Line

/-!
# Build provenance

What is known of a build: the attributes of the manifest tag, the main section of the archive's
own manifest, and the tooling metadata, a JSON file that the build may leave in the raw tree. Later
sources replace earlier ones.
-/
namespace SdkEvidence.Tooling

/-- The name of the file. -/
def fileName : String := "kotlin-tooling-metadata.json"

/-- What the file says, if it can be read. -/
def read? (fs : FileSystem) (raw : PathText) : Option Json :=
  (fs.readText? (Path.join raw fileName)).bind Json.read?

/-- A text of the file. -/
def text? (tooling : Json) (key : String) : Option String :=
  (tooling.member? key).bind Json.string?

/-- The version of the build plugin. -/
def pluginVersion? (fs : FileSystem) (raw : PathText) : Option String :=
  (read? fs raw).bind fun tooling => text? tooling "buildPluginVersion"

end SdkEvidence.Tooling

namespace SdkEvidence.Provenance

/-- The name of the archive's own manifest. -/
def sectionFile : String := "MANIFEST.MF"

/-- Keys that tell nothing of a build. -/
def skippedKeys : List String := ["Manifest-Version"]

/-- The key and the value of a line, cut at its first colon. -/
def ofLine? (line : List Char) : Option (String × String) :=
  let key := line.takeWhile (· != ':')
  match line.drop key.length with
  | _ :: value =>
      let key := String.ofList (Text.trim key)
      if skippedKeys.contains key then none else some (key, String.ofList (Text.trim value))
  | [] => none

/-- The pairs of the main section, which ends before the first blank line. -/
def mainSection (text : List Char) : List (String × String) :=
  ((Text.lines text).takeWhile fun line => !(Text.trim line).isEmpty).filterMap ofLine?

/-- Keys of the tooling metadata that are kept. -/
def toolingKeys : List String :=
  ["buildSystem", "buildSystemVersion", "buildPlugin", "buildPluginVersion"]

/-- The pairs of the tooling metadata. -/
def ofTooling (tooling : Json) : List (String × String) :=
  toolingKeys.filterMap fun key => (Tooling.text? tooling key).map ("kotlin." ++ key, ·)

/-- The provenance of a package over what its manifest tag says. -/
def collect (fs : FileSystem) (raw : PathText) (metadata : Option PathText)
    (base : Dictionary String) : Dictionary String :=
  let text := metadata.bind fun directory => fs.readText? (Path.join directory sectionFile)
  let pairs := (text.map fun text => mainSection text.toList).getD []
  let tooling := ((Tooling.read? fs raw).map ofTooling).getD []
  (base.insertAll pairs).insertAll tooling

end SdkEvidence.Provenance
