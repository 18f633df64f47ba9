import SdkEvidence.FileSystem.Content
import SdkEvidence.FileSystem.Walk
import SdkEvidence.Text.Blank
import SdkEvidence.Text.Line

/-!
# Version stamps

Libraries leave a file with their version directly in the metadata directory. The name of the file
up to its extension is the identifier of the library, the first line that is not blank is the
version.
-/
namespace SdkEvidence

/-- The version of one bundled library. -/
structure VersionStamp where
  library : String
  version : String
  deriving DecidableEq, Repr

namespace VersionStamp

/-- The extension of a stamp file. -/
def fileExtension : String := "version"

/-- The first line that is not blank, trimmed. -/
def firstLine? (text : List Char) : Option String :=
  (((Text.lines text).map Text.trim).find? fun line => !line.isEmpty).map String.ofList

/-- The stamp that a file is, by its name and its content. -/
def ofFile? (name : String) (content : ByteArray) : Option VersionStamp :=
  let (stem, extension) := Path.splitName name
  if extension = some fileExtension then do
    let text ← Utf8.decode? content
    let version ← firstLine? text.toList
    some { library := stem, version }
  else none

/-- Stamps in the order of their libraries, then of their versions. -/
def le (a b : VersionStamp) : Bool :=
  if a.library = b.library then decide (a.version ≤ b.version) else decide (a.library ≤ b.library)

/-- Keeps the first stamp of each library in a sorted list. -/
def distinct (stamps : List VersionStamp) : List VersionStamp :=
  stamps.eraseRepsBy fun a b => a.library == b.library

/-- The stamps in a directory, sorted by library. A path that leads to a file stands for that file
alone. -/
def read (fs : FileSystem) (directory : PathText) : List VersionStamp :=
  let files := (fs.walkPath directory).filter fun file => file.way.length ≤ 1
  let stamps := files.filterMap fun file =>
    ofFile? ((file.way.getLast?).getD ((Path.fileName? directory).getD directory)) file.content
  distinct (stamps.mergeSort le)

/-- The stamps in a directory, if there is one. -/
def readFrom (fs : FileSystem) (directory : Option PathText) : List VersionStamp :=
  (directory.map (read fs)).getD []

end VersionStamp
end SdkEvidence
