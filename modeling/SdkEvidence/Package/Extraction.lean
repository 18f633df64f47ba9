import SdkEvidence.FileSystem.Content
import SdkEvidence.FileSystem.Resolve
import SdkEvidence.Package.SplitName
import SdkEvidence.Zip.Archive
import SdkEvidence.Zip.EntryName

/-!
# Extraction

The files of an archive are laid over a directory in entry order. Entries whose names leave the
directory are passed over and named in the result. An entry that cannot be written ends the
extraction; what earlier entries wrote stays.
-/
namespace SdkEvidence

/-- What an extraction did. -/
structure Extraction where
  written : Nat
  bytes : Nat
  overwritten : List String
  rejected : List String
  deriving DecidableEq, Repr

/-- Nothing written yet. -/
def Extraction.empty : Extraction :=
  { written := 0, bytes := 0, overwritten := [], rejected := [] }

/-- Why an extraction ends early. -/
inductive ExtractionError where
  | notOpened (archive : PathText) (e : OsError)
  | notRead (archive : PathText) (e : OsError)
  | notAnArchive (archive : PathText) (e : Zip.Error)
  | unreadableEntry (index : Nat) (e : Zip.Error)
  | notCreated (path : PathText) (e : OsError)
  | badContent (name : String) (e : Zip.ContentError)
  | notWritten (path : PathText) (e : OsError)
  deriving DecidableEq, Repr

/-- The wording of an error. -/
def ExtractionError.message : ExtractionError → String
  | .notOpened archive e => "Failed to open " ++ archive ++ ": " ++ e.message
  | .notRead archive e => "Invalid zip archive " ++ archive ++ ": " ++ e.message
  | .notAnArchive archive e => "Invalid zip archive " ++ archive ++ ": " ++ e.message
  | .unreadableEntry index e => "Zip entry " ++ toString index ++ " unreadable: " ++ e.message
  | .notCreated path e => "Failed to create " ++ path ++ ": " ++ e.message
  | .badContent name e => "Failed to read entry " ++ name ++ ": " ++ e.message
  | .notWritten path e => "Failed to write " ++ path ++ ": " ++ e.message

namespace Extraction

/-- The entries of the archive that a path leads to. -/
def readArchive (fs : FileSystem) (archive : PathText) : Except ExtractionError (List Zip.Member) :=
  match fs.resolve archive with
  | .error e => .error (.notOpened archive e)
  | .ok (.free _ _) => .error (.notOpened archive .notFound)
  | .ok (.found _ .directory) => .error (.notRead archive .isADirectory)
  | .ok (.found _ (.file content _)) =>
      match Zip.read content with
      | .ok members => .ok members
      | .error e => .error (.notAnArchive archive e)

/-- Whether a path leads to a file with another content, told by the digests. -/
def differs (fs : FileSystem) (target : PathText) (content : ByteArray) : Bool :=
  match fs.digest target with
  | .ok old => old != Sha256.hexDigest content
  | .error _ => false

/-- Creates the directory of a target. -/
def makeRoom (fs : FileSystem) (target : PathText) :
    FileSystem × Except ExtractionError Unit :=
  match Path.parent? target with
  | none => (fs, .ok ())
  | some parent =>
      match fs.createDirectories parent with
      | (fs, .ok ()) => (fs, .ok ())
      | (fs, .error e) => (fs, .error (.notCreated parent e))

/-- Writes a file into a directory that may still be missing. -/
def placeFile (fs : FileSystem) (target : PathText) (content : ByteArray) :
    FileSystem × Except ExtractionError Unit :=
  match makeRoom fs target with
  | (fs, .error e) => (fs, .error e)
  | (fs, .ok ()) =>
      match fs.writeFile target content with
      | .ok fs => (fs, .ok ())
      | .error e => (fs, .error (.notWritten target e))

/-- What was done, with one more file written. -/
def addFile (done : Extraction) (name : String) (differed : Bool) (content : ByteArray) :
    Extraction :=
  { done with
    written := done.written + 1
    bytes := done.bytes + content.size
    overwritten := if differed then done.overwritten ++ [name] else done.overwritten }

/-- Extracts one entry that can be opened. -/
def extractOpened (fs : FileSystem) (dest : PathText) (done : Extraction) (name : String)
    (opened : Zip.Opened) : FileSystem × Except ExtractionError Extraction :=
  let target := Path.join dest name
  if !Zip.isEnclosed name then (fs, .ok { done with rejected := done.rejected ++ [name] })
  else if Zip.isDirectoryName name then
    match fs.createDirectories target with
    | (fs, .ok ()) => (fs, .ok done)
    | (fs, .error e) => (fs, .error (.notCreated target e))
  else
    match opened.content with
    | .error e => (fs, .error (.badContent name e))
    | .ok content =>
        match placeFile fs target content with
        | (after, .ok ()) => (after, .ok (done.addFile name (differs fs target content) content))
        | (after, .error e) => (after, .error e)

/-- Extracts entries in order, from the one with the given index on. -/
def extractMembers (dest : PathText) :
    Nat → Extraction → FileSystem → List Zip.Member → FileSystem × Except ExtractionError Extraction
  | _, done, fs, [] => (fs, .ok done)
  | index, done, fs, member :: rest =>
      match member.opened with
      | .error e => (fs, .error (.unreadableEntry index e))
      | .ok opened =>
          match extractOpened fs dest done member.name opened with
          | (fs, .ok done) => extractMembers dest (index + 1) done fs rest
          | (fs, .error e) => (fs, .error e)

/-- Lays entries over a directory, which is created if it is missing. -/
def layMembers (dest : PathText) (fs : FileSystem) (members : List Zip.Member) :
    FileSystem × Except ExtractionError Extraction :=
  match fs.createDirectories dest with
  | (fs, .error e) => (fs, .error (.notCreated dest e))
  | (fs, .ok ()) => extractMembers dest 0 .empty fs members

end Extraction

/-- Lays the files of an archive over a directory. -/
def extractInto (archive dest : PathText) (fs : FileSystem) :
    FileSystem × Except ExtractionError Extraction :=
  match Extraction.readArchive fs archive with
  | .error e => (fs, .error e)
  | .ok members => Extraction.layMembers dest fs members

/-- Whether an archive has an entry that is a package by its name. -/
def containsPackages (archive : PathText) (fs : FileSystem) : Except ExtractionError Bool :=
  (Extraction.readArchive fs archive).map fun members =>
    members.any fun m => SplitName.isPackage m.name

end SdkEvidence
