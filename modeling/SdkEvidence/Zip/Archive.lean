import SdkEvidence.Bytes.Access
import SdkEvidence.Bytes.Checksum
import SdkEvidence.Deflate.Compress
import SdkEvidence.Deflate.Inflate
import SdkEvidence.Zip.Directory

/-!
# Archives

Reading an archive gives its entries in directory order, each with its content or the reason why
it has none. Writing takes a list of files; the directory repeats what stands before each file.
-/
namespace SdkEvidence.Zip

/-- How the content of an entry is kept. -/
inductive Method where
  | stored
  | deflated
  deriving DecidableEq, Repr

/-- The number of a method in the headers. -/
def Method.code : Method → Nat
  | .stored => 0
  | .deflated => 8

/-- The method of a number, where it is one that can be read. -/
def Method.ofCode? : Nat → Option Method
  | 0 => some .stored
  | 8 => some .deflated
  | _ => none

theorem Method.ofCode?_code (m : Method) : Method.ofCode? m.code = some m := by
  cases m <;> rfl

/-- An entry that can be opened. -/
structure Opened where
  method : Method
  content : Except ContentError ByteArray

/-- One entry of an archive: its name, and what opening it gives. -/
structure Member where
  name : String
  opened : Except Error Opened

/-- Where the content of an entry starts: its local header is as long as the header says. -/
def Entry.contentStart (data : ByteArray) (entry : Entry) : Except Error Nat := do
  let mark ← field data entry.offset 4
  if mark ≠ localMark then throw .badLocalHeader
  let nameLength ← field data (entry.offset + 26) 2
  let extraLength ← field data (entry.offset + 28) 2
  pure (entry.offset + 30 + nameLength + extraLength)

/-- The content of packed bytes, checked against the stated checksum. -/
def unpack (method : Method) (packed : ByteArray) (checksum : Nat) :
    Except ContentError ByteArray :=
  match (match method with
    | .stored => some packed
    | .deflated => Deflate.inflate packed) with
  | none => .error .corruptStream
  | some content =>
      if (Crc32.checksum content).toNat = checksum then .ok content else .error .badChecksum

/-- Opens an entry. Encryption is refused before its local header is looked at, an unknown method
after. Packed bytes beyond the end of the data are missing. -/
def Entry.openIn (data : ByteArray) (entry : Entry) : Except Error Opened := do
  if entry.isEncrypted then throw .encrypted
  let start ← entry.contentStart data
  match Method.ofCode? entry.method with
  | none => throw (.unknownMethod entry.method)
  | some method =>
      let packed := data.extract start (start + entry.packedSize)
      pure { method, content := unpack method packed entry.checksum }

/-- The entries of an archive, in directory order. -/
def read (data : ByteArray) : Except Error (List Member) := do
  let entries ← readDirectory data
  pure (entries.map fun entry => { name := entry.name, opened := entry.openIn data })

/-- A file to be written. -/
structure NewFile where
  name : String
  method : Method
  content : ByteArray
  deriving DecidableEq

/-- The content as it is kept. -/
def NewFile.packed (file : NewFile) : ByteArray :=
  match file.method with
  | .stored => file.content
  | .deflated => Deflate.compress file.content

/-- The flag that marks a name as UTF-8 is set where the name needs it. -/
def NewFile.flags (file : NewFile) : Nat :=
  if file.name.toList.all fun c => c.toNat < 128 then 0 else 2048

/-- The fields that the local header and the directory header share. -/
def NewFile.sharedFields (file : NewFile) (packed : ByteArray) : List UInt8 :=
  let le := LittleEndian.bytes
  le 2 20 ++ le 2 file.flags ++ le 2 file.method.code ++ le 2 0 ++ le 2 0x21
    ++ le 4 (Crc32.checksum file.content).toNat ++ le 4 packed.size ++ le 4 file.content.size
    ++ le 2 (Utf8.encode file.name).size ++ le 2 0

/-- The local header, the name and the kept content. -/
def NewFile.localRecord (file : NewFile) : ByteArray :=
  let packed := file.packed
  (LittleEndian.bytes 4 localMark ++ file.sharedFields packed).toByteArray
    ++ Utf8.encode file.name ++ packed

/-- The directory header of a file whose local header stands at an offset. -/
def NewFile.directoryRecord (file : NewFile) (offset : Nat) : ByteArray :=
  let le := LittleEndian.bytes
  (le 4 directoryMark ++ le 2 0x032E ++ file.sharedFields file.packed
    ++ le 2 0 ++ le 2 0 ++ le 2 0 ++ le 4 0x81A40000 ++ le 4 offset).toByteArray
    ++ Utf8.encode file.name

/-- The local header of a file before its content is known: all sizes are zero. -/
def openHeader (name : String) (method : Method) : ByteArray :=
  let blank : NewFile := { name, method, content := ByteArray.empty }
  (LittleEndian.bytes 4 localMark ++ blank.sharedFields ByteArray.empty).toByteArray
    ++ Utf8.encode name

/-- What an archive holds while a file is about to be added to those it has. -/
def unfinished (done : List NewFile) (name : String) (method : Method) : ByteArray :=
  (done.foldl (fun body file => body ++ file.localRecord) ByteArray.empty) ++ openHeader name method

/-- Appends files to the local records and the directory written so far. -/
def writeOnto (body directory : ByteArray) : List NewFile → ByteArray × ByteArray
  | [] => (body, directory)
  | file :: rest =>
      writeOnto (body ++ file.localRecord) (directory ++ file.directoryRecord body.size) rest

/-- The archive that holds the files in order. -/
def write (files : List NewFile) : ByteArray :=
  let (body, directory) := writeOnto ByteArray.empty ByteArray.empty files
  let le := LittleEndian.bytes
  body ++ directory
    ++ (le 4 endMark ++ le 2 0 ++ le 2 0 ++ le 2 files.length ++ le 2 files.length
      ++ le 4 directory.size ++ le 4 body.size ++ le 2 0).toByteArray

/-- What reading a written file gives. -/
def NewFile.toMember (file : NewFile) : Member :=
  { name := file.name, opened := .ok { method := file.method, content := .ok file.content } }

end SdkEvidence.Zip
