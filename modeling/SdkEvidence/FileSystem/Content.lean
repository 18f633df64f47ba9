import SdkEvidence.Bytes.Checksum
import SdkEvidence.Bytes.Utf8
import SdkEvidence.FileSystem.Resolve

/-!
# What files hold

Contents of files as digests and as texts.
-/
namespace SdkEvidence.FileSystem

/-! ## Digests of files

A file is identified by the digest of its content.
-/

/-- The digest of the file that a path leads to. -/
def digest (fs : FileSystem) (p : PathText) : Except OsError String :=
  (fs.readFile p).map Sha256.hexDigest

/-! ## Reading texts

A file read as a text is valid UTF-8, or there is no text.
-/

/-- Why a text cannot be read. -/
inductive TextError where
  | unreadable (e : OsError)
  | notUtf8
  deriving DecidableEq, Repr

/-- The wording of an error. -/
def TextError.message : TextError → String
  | .unreadable e => e.message
  | .notUtf8 => "stream did not contain valid UTF-8"

/-- The text of the file that a path leads to. -/
def readText (fs : FileSystem) (p : PathText) : Except TextError String :=
  match fs.readFile p with
  | .error e => .error (.unreadable e)
  | .ok content =>
      match Utf8.decode? content with
      | some text => .ok text
      | none => .error .notUtf8

/-- The text of a file, if there is one. -/
def readText? (fs : FileSystem) (p : PathText) : Option String :=
  (fs.readText p).toOption

end SdkEvidence.FileSystem
