import SdkEvidence.FileSystem.Walk
import SdkEvidence.Text.Lower
import SdkEvidence.Zip.Archive

/-!
# Recompression

The files of a directory become an archive, in walk order, so that the same tree always gives the
same layout. Some files are kept as they are, since installed packages read them in place.
-/
namespace SdkEvidence

namespace Recompression

/-- Names of files that are stored. -/
def storedNames : List String := ["resources.arsc"]

/-- Extensions of files that are stored. -/
def storedExtensions : List String := ["so", "png", "jpg", "ogg", "mp3", "mp4"]

/-- How a file is kept. -/
def method (name : String) : Zip.Method :=
  let extension := ((Path.splitName name).2).getD ""
  if storedNames.contains name || storedExtensions.contains (Text.lowered extension) then .stored
  else .deflated

/-- A file of the walk as an entry. -/
def entry (file : WalkedFile) : Zip.NewFile :=
  { name := file.relative, method := method (file.way.getLast?.getD ""), content := file.content }

/-- The entries for the files of a walk. An archive that lies in its own tree is met while it is
written: what it holds then is its records so far and the header of its own entry. -/
def entries (itself : Option Location) : List Zip.NewFile → List WalkedFile → List Zip.NewFile
  | done, [] => done
  | done, file :: rest =>
      let new := entry file
      let content :=
        if some file.way = itself then Zip.unfinished done new.name new.method else file.content
      entries itself (done ++ [{ new with content }]) rest

/-- The wording for an archive that cannot be written. -/
def failureText (output : PathText) (e : OsError) : String :=
  "Failed to create " ++ output ++ ": " ++ e.message

end Recompression

/-- Writes the files below a directory to an archive. Gives their number. -/
def compressDirectory (source output : PathText) (fs : FileSystem) :
    FileSystem × Except OsError Nat :=
  match fs.writeFile output ByteArray.empty with
  | .error e => (fs, .error e)
  | .ok fs =>
      let itself := match fs.find? source, fs.find? output with
        | some (top, _), some (loc, _) => Location.below? top loc
        | _, _ => none
      let files := Recompression.entries itself [] (fs.walkPath source)
      match fs.writeFile output (Zip.write files) with
      | .ok fs => (fs, .ok files.length)
      | .error e => (fs, .error e)

end SdkEvidence
