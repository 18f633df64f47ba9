import SdkEvidence.Bytes.Access
import SdkEvidence.Bytes.Utf8

/-!
# Archive directories

What an archive says of its entries, the character set of their names, and what can be wrong with
it.
-/
namespace SdkEvidence.Zip

/-! ## What can be wrong with an archive -/

/-- Why an archive, or one of its entries, cannot be opened. -/
inductive Error where
  | truncated
  | noEndRecord
  | badDirectoryBounds
  | noWideEndRecord
  | badDirectoryHeader
  | badLocalHeader
  | badEncryptionField
  | multipleDisks
  | encrypted
  | unknownMethod (code : Nat)
  deriving DecidableEq, Repr

/-- The wording of an error. -/
def Error.message : Error → String
  | .truncated => "failed to fill whole buffer"
  | .noEndRecord => "invalid Zip archive: no end of central directory"
  | .badDirectoryBounds => "invalid Zip archive: central directory out of bounds"
  | .noWideEndRecord => "invalid Zip archive: no wide end of central directory"
  | .badDirectoryHeader => "invalid Zip archive: bad central directory header"
  | .badLocalHeader => "invalid Zip archive: bad local file header"
  | .badEncryptionField => "invalid Zip archive: bad encryption field"
  | .multipleDisks => "unsupported Zip archive: more than one disk"
  | .encrypted => "unsupported Zip archive: a password is needed"
  | .unknownMethod _ => "unsupported Zip archive: unknown compression method"

/-- Why the content of an opened entry cannot be read. -/
inductive ContentError where
  | corruptStream
  | badChecksum
  deriving DecidableEq, Repr

/-- The wording of a content error. -/
def ContentError.message : ContentError → String
  | .corruptStream => "corrupt deflate stream"
  | .badChecksum => "Invalid checksum"

/-! ## Code page 437

The character set of entry names that are not marked as UTF-8. Its lower half is ASCII.
-/

/-- The characters of the upper half, from byte 128 on. -/
def codePage437Upper : List Char :=
  ("ÇüéâäàåçêëèïîìÄÅÉæÆôöòûùÿÖÜ¢£¥₧ƒáíóúñÑªº¿⌐¬½¼¡«»░▒▓│┤╡╢╖╕╣║╗╝╜╛┐"
    ++ "└┴┬├─┼╞╟╚╔╩╦╠═╬╧╨╤╥╙╘╒╓╫╪┘┌█▄▌▐▀αßΓπΣσµτΦΘΩδ∞φε∩≡±≥≤⌠⌡÷≈°∙·√ⁿ²■ ").toList

/-- The character of a byte. -/
def codePage437Char (b : UInt8) : Char :=
  if b < 128 then Char.ofNat b.toNat else codePage437Upper.getD (b.toNat - 128) '\uFFFD'

/-- The text that bytes spell in this character set. -/
def decodeCodePage437 (bytes : List UInt8) : String :=
  String.ofList (bytes.map codePage437Char)

/-! ## The central directory

An archive ends with a record that says where its directory stands. Data in front of the archive
shift all offsets; the shift is taken from where the end record was found. A wide end record
replaces the fields that do not fit the plain one.
-/

/-- The number of `width` bytes at `offset`. -/
def field (data : ByteArray) (offset width : Nat) : Except Error Nat :=
  match LittleEndian.numberAt? data offset width with
  | some n => .ok n
  | none => .error .truncated

/-- The bytes of a range that must lie in the data. -/
def range (data : ByteArray) (offset length : Nat) : Except Error ByteArray :=
  if offset + length ≤ data.size then .ok (data.extract offset (offset + length))
  else .error .truncated

/-- The marks that records start with. -/
def endMark : Nat := 0x06054b50
def wideLocatorMark : Nat := 0x07064b50
def wideEndMark : Nat := 0x06064b50
def directoryMark : Nat := 0x02014b50
def localMark : Nat := 0x04034b50

/-- Where the directory stands, how many entries it has, and how far everything is shifted. -/
structure Layout where
  start : Nat
  count : Nat
  shift : Nat
  deriving DecidableEq, Repr

/-- The end record. -/
structure EndRecord where
  position : Nat
  disk : Nat
  directoryDisk : Nat
  countHere : Nat
  count : Nat
  directorySize : Nat
  directoryOffset : Nat
  commentLength : Nat
  deriving DecidableEq, Repr

/-- Whether some field of the end record is too narrow for its value. -/
def EndRecord.tooNarrow (r : EndRecord) : Bool :=
  r.disk == 0xFFFF || r.directoryDisk == 0xFFFF || r.countHere == 0xFFFF || r.count == 0xFFFF
    || r.directorySize == 0xFFFFFFFF || r.directoryOffset == 0xFFFFFFFF

/-- Reads the end record at a position, with its comment. -/
def EndRecord.read (data : ByteArray) (position : Nat) : Except Error EndRecord := do
  let disk ← field data (position + 4) 2
  let directoryDisk ← field data (position + 6) 2
  let countHere ← field data (position + 8) 2
  let count ← field data (position + 10) 2
  let directorySize ← field data (position + 12) 4
  let directoryOffset ← field data (position + 16) 4
  let commentLength ← field data (position + 20) 2
  let _ ← range data (position + 22) commentLength
  pure { position, disk, directoryDisk, countHere, count, directorySize, directoryOffset,
         commentLength }

/-- The last position, from `position` down, where an end record starts. At most `fuel` further
positions are tried. -/
def findEnd (data : ByteArray) : Nat → Nat → Option Nat
  | fuel, position =>
      if LittleEndian.numberAt? data position 4 = some endMark then some position
      else
        match fuel, position with
        | fuel + 1, position + 1 => findEnd data fuel position
        | _, _ => none

/-- The first position, from `position` on, where a wide end record starts. -/
def findWideEnd (data : ByteArray) : Nat → Nat → Except Error Nat
  | 0, _ => .error .noWideEndRecord
  | fuel + 1, position => do
      let mark ← field data position 4
      if mark = wideEndMark then pure position else findWideEnd data fuel (position + 1)

/-- The layout that a wide end record states. -/
def wideLayout (data : ByteArray) (record : EndRecord) (locator : Nat) : Except Error Layout := do
  let locatorDisk ← field data (locator + 4) 4
  let stated ← field data (locator + 8) 8
  let _ ← field data (locator + 16) 4
  if !record.tooNarrow && record.disk != locatorDisk then throw .multipleDisks
  if record.position < 60 then throw .noWideEndRecord
  let position ← findWideEnd data (record.position - 60 + 1 - stated) stated
  let disk ← field data (position + 16) 4
  let directoryDisk ← field data (position + 20) 4
  let _ ← field data (position + 24) 8
  let count ← field data (position + 32) 8
  let _ ← field data (position + 40) 8
  let offset ← field data (position + 48) 8
  if disk ≠ directoryDisk then throw .multipleDisks
  if Nat.pow 2 64 ≤ offset + (position - stated) then throw .badDirectoryBounds
  pure { start := offset + (position - stated), count, shift := position - stated }

/-- The layout of an archive. -/
def Layout.read (data : ByteArray) : Except Error Layout := do
  if data.size < 22 then throw .noEndRecord
  match findEnd data 0xFFFF (data.size - 22) with
  | none => throw .noEndRecord
  | some position =>
    let record ← EndRecord.read data position
    if !record.tooNarrow && record.disk != record.directoryDisk then throw .multipleDisks
    let fromEnd := 42 + record.commentLength
    let locator := data.size - fromEnd
    if fromEnd ≤ data.size ∧ LittleEndian.numberAt? data locator 4 = some wideLocatorMark then
      wideLayout data record locator
    else if position < record.directorySize + record.directoryOffset then
      throw .badDirectoryBounds
    else
      let shift := position - record.directorySize - record.directoryOffset
      pure { start := record.directoryOffset + shift, count := record.countHere, shift }

/-- What the directory says about an entry. -/
structure Entry where
  name : String
  isEncrypted : Bool
  method : Nat
  checksum : Nat
  packedSize : Nat
  size : Nat
  offset : Nat
  deriving DecidableEq, Repr

/-- The value that stands for "see the wide field". -/
def wideValue : Nat := 0xFFFFFFFF

/-- A number that may stand in a wide field: the number, and the position after the field. -/
def wideNumber (data : ByteArray) (position n : Nat) : Option (Nat × Nat) :=
  if n = wideValue then (LittleEndian.numberAt? data position 8).map (·, position + 8)
  else some (n, position)

/-- Applies the extra fields of an entry from a position on. A field that ends early ends the
reading. Every field takes at least four bytes. -/
def Entry.withExtra (data : ByteArray) : Nat → Nat → Entry → Except Error Entry
  | 0, _, entry => .ok entry
  | fuel + 1, position, entry =>
      match LittleEndian.numberAt? data position 2,
        LittleEndian.numberAt? data (position + 2) 2 with
      | some kind, some length =>
          let body := position + 4
          if kind = 1 then
            match wideNumber data body entry.size with
            | none => .ok entry
            | some (size, next) =>
                let entry := { entry with size }
                match wideNumber data next entry.packedSize with
                | none => .ok entry
                | some (packedSize, next) =>
                    let entry := { entry with packedSize }
                    match wideNumber data next entry.offset with
                    | none => .ok entry
                    | some (offset, next) =>
                        let entry := { entry with offset }
                        Entry.withExtra data fuel (max next (body + length)) entry
          else if kind = 0x9901 then .error .badEncryptionField
          else Entry.withExtra data fuel (body + length) entry
      | _, _ => .ok entry

/-- Reads the entry whose directory header stands at a position; also the position after it. -/
def Entry.read (data : ByteArray) (shift position : Nat) : Except Error (Entry × Nat) := do
  let mark ← field data position 4
  if mark ≠ directoryMark then throw .badDirectoryHeader
  let flags ← field data (position + 8) 2
  let method ← field data (position + 10) 2
  let checksum ← field data (position + 16) 4
  let packedSize ← field data (position + 20) 4
  let size ← field data (position + 24) 4
  let nameLength ← field data (position + 28) 2
  let extraLength ← field data (position + 30) 2
  let commentLength ← field data (position + 32) 2
  let offset ← field data (position + 42) 4
  let name ← range data (position + 46) nameLength
  let extra ← range data (position + 46 + nameLength) extraLength
  let _ ← range data (position + 46 + nameLength + extraLength) commentLength
  let text :=
    if flags / 2048 % 2 = 1 then Utf8.decodeLossy name else decodeCodePage437 name.toList
  let plain : Entry :=
    { name := text, isEncrypted := flags % 2 == 1, method, checksum, packedSize, size, offset }
  let entry ← plain.withExtra extra (extra.size + 1) 0
  if entry.method = 99 then throw .badEncryptionField
  if Nat.pow 2 64 ≤ entry.offset + shift then throw .badDirectoryBounds
  pure ({ entry with offset := entry.offset + shift },
    position + 46 + nameLength + extraLength + commentLength)

/-- Reads `count` entries from a position on. -/
def readEntries (data : ByteArray) (shift : Nat) :
    Nat → Nat → List Entry → Except Error (List Entry)
  | 0, _, done => .ok done.reverse
  | count + 1, position, done =>
      match Entry.read data shift position with
      | .error e => .error e
      | .ok (entry, next) => readEntries data shift count next (entry :: done)

/-- The entries that the directory of an archive lists, in order. -/
def readDirectory (data : ByteArray) : Except Error (List Entry) := do
  let layout ← Layout.read data
  readEntries data layout.shift layout.count layout.start []

end SdkEvidence.Zip
