/-!
# UTF-8

One reader serves both uses of a byte sequence as text. It splits the bytes into characters and
ill-formed parts, each part as long as it could still have begun a character. Strict reading
refuses any ill-formed part; lossy reading puts a replacement character in its place.
-/
namespace SdkEvidence.Utf8

/-- Whether the byte can stand after the first byte of a character. -/
def isContinuation (b : UInt8) : Bool :=
  0x80 ≤ b && b ≤ 0xBF

/-- The six bits that a continuation byte carries. -/
def payload (b : UInt8) : Nat :=
  b.toNat % 64

/-- The least and the greatest second byte after a given first byte. They keep out overlong
forms, surrogates and points beyond the last one. -/
def secondRange (first : UInt8) : UInt8 × UInt8 :=
  if first = 0xE0 then (0xA0, 0xBF)
  else if first = 0xED then (0x80, 0x9F)
  else if first = 0xF0 then (0x90, 0xBF)
  else if first = 0xF4 then (0x80, 0x8F)
  else (0x80, 0xBF)

/-- How many bytes follow a first byte, if it can be one. -/
def followers (first : UInt8) : Option Nat :=
  if first < 0x80 then some 0
  else if 0xC2 ≤ first && first ≤ 0xDF then some 1
  else if 0xE0 ≤ first && first ≤ 0xEF then some 2
  else if 0xF0 ≤ first && first ≤ 0xF4 then some 3
  else none

/-- How many of the next `wanted` bytes continue a character. -/
def continuations (wanted : Nat) (rest : List UInt8) : Nat :=
  ((rest.take wanted).takeWhile isContinuation).length

/-- How many bytes after `first` belong with it: all that it asks for when the character is
complete, otherwise those that could still have continued it. -/
def extent (first : UInt8) (rest : List UInt8) : Nat :=
  match followers first, rest with
  | some (wanted + 1), second :: more =>
      let (least, greatest) := secondRange first
      if least ≤ second && second ≤ greatest then 1 + continuations wanted more else 0
  | _, _ => 0

/-- The bits of the first byte that count, by the number of bytes after it. -/
def leadBits (first : UInt8) : Nat → Nat
  | 0 => first.toNat
  | 1 => first.toNat % 32
  | 2 => first.toNat % 16
  | _ => first.toNat % 8

/-- The character that starts with `first`, or none where the bytes form no character, and how
many bytes after `first` the reading takes. -/
def readOne (first : UInt8) (rest : List UInt8) : Option Char × Nat :=
  let taken := extent first rest
  if followers first = some taken then
    let point := (rest.take taken).foldl (fun n b => n * 64 + payload b) (leadBits first taken)
    (some (Char.ofNat point), taken)
  else (none, taken)

/-- Reads on: `skip` bytes belong to what was read before, `done` holds it backwards. -/
def readOnto (skip : Nat) (done : List (Option Char)) : List UInt8 → List (Option Char)
  | [] => done.reverse
  | b :: rest =>
      match skip with
      | skip + 1 => readOnto skip done rest
      | 0 => readOnto (readOne b rest).2 ((readOne b rest).1 :: done) rest

/-- The characters of a byte sequence, with none for each ill-formed part. -/
def read (bytes : List UInt8) : List (Option Char) :=
  readOnto 0 [] bytes

/-- The text that the bytes spell, if they are well-formed throughout. -/
def decode? (bytes : ByteArray) : Option String :=
  let units := read bytes.toList
  if units.all Option.isSome then some (String.ofList (units.filterMap id)) else none

/-- The text that the bytes spell, with a replacement character for each ill-formed part. -/
def decodeLossy (bytes : ByteArray) : String :=
  String.ofList ((read bytes.toList).map (Option.getD · '\uFFFD'))

/-- The bytes of a text. -/
def encode (text : String) : ByteArray :=
  text.toUTF8

end SdkEvidence.Utf8
