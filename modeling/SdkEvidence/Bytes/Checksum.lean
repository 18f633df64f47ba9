import SdkEvidence.Bytes.Access
import SdkEvidence.Bytes.Hex

/-!
# Checks and digests

The two functions that tell whether bytes are what they were: the cyclic redundancy check of archive
entries, and the digest that identifies files.
-/

/-! ## Cyclic redundancy check

The 32-bit check of the polynomial `0xEDB88320`, reflected, with inverted start and end.
-/
namespace SdkEvidence.Crc32

/-- One bit of polynomial division. -/
def shift (r : UInt32) : UInt32 :=
  if r &&& 1 = 1 then (r >>> 1) ^^^ 0xEDB88320 else r >>> 1

/-- One byte of polynomial division. -/
def step (r : UInt32) (b : UInt8) : UInt32 :=
  shift (shift (shift (shift (shift (shift (shift (shift (r ^^^ b.toUInt32))))))))

/-- The check of a byte sequence. -/
def checksum (data : ByteArray) : UInt32 :=
  data.foldl step 0xFFFFFFFF ^^^ 0xFFFFFFFF

end SdkEvidence.Crc32

/-! ## SHA-256

The digest of a byte sequence: the message is padded to blocks of sixteen words, each block is
stretched to a schedule of sixty-four words, and each schedule is mixed into eight state words.
-/
namespace SdkEvidence.Sha256

/-- The sixty-four round constants. -/
def roundConstants : List UInt32 := [
  0x428a2f98, 0x71374491, 0xb5c0fbcf, 0xe9b5dba5, 0x3956c25b, 0x59f111f1, 0x923f82a4, 0xab1c5ed5,
  0xd807aa98, 0x12835b01, 0x243185be, 0x550c7dc3, 0x72be5d74, 0x80deb1fe, 0x9bdc06a7, 0xc19bf174,
  0xe49b69c1, 0xefbe4786, 0x0fc19dc6, 0x240ca1cc, 0x2de92c6f, 0x4a7484aa, 0x5cb0a9dc, 0x76f988da,
  0x983e5152, 0xa831c66d, 0xb00327c8, 0xbf597fc7, 0xc6e00bf3, 0xd5a79147, 0x06ca6351, 0x14292967,
  0x27b70a85, 0x2e1b2138, 0x4d2c6dfc, 0x53380d13, 0x650a7354, 0x766a0abb, 0x81c2c92e, 0x92722c85,
  0xa2bfe8a1, 0xa81a664b, 0xc24b8b70, 0xc76c51a3, 0xd192e819, 0xd6990624, 0xf40e3585, 0x106aa070,
  0x19a4c116, 0x1e376c08, 0x2748774c, 0x34b0bcb5, 0x391c0cb3, 0x4ed8aa4a, 0x5b9cca4f, 0x682e6ff3,
  0x748f82ee, 0x78a5636f, 0x84c87814, 0x8cc70208, 0x90befffa, 0xa4506ceb, 0xbef9a3f7, 0xc67178f2]

/-- The eight words that the digest is made of. -/
structure State where
  a : UInt32
  b : UInt32
  c : UInt32
  d : UInt32
  e : UInt32
  f : UInt32
  g : UInt32
  h : UInt32
  deriving DecidableEq, Repr

/-- The state before the first block. -/
def State.initial : State :=
  ⟨0x6a09e667, 0xbb67ae85, 0x3c6ef372, 0xa54ff53a, 0x510e527f, 0x9b05688c, 0x1f83d9ab, 0x5be0cd19⟩

/-- A word rotated to the right. -/
def rotate (x n : UInt32) : UInt32 :=
  (x >>> n) ||| (x <<< (32 - n))

/-- One round: a constant and a schedule word are mixed into the state. -/
def State.round (s : State) (constant word : UInt32) : State :=
  let s1 := rotate s.e 6 ^^^ rotate s.e 11 ^^^ rotate s.e 25
  let choice := (s.e &&& s.f) ^^^ ((s.e ^^^ 0xFFFFFFFF) &&& s.g)
  let t1 := s.h + s1 + choice + constant + word
  let s0 := rotate s.a 2 ^^^ rotate s.a 13 ^^^ rotate s.a 22
  let majority := (s.a &&& s.b) ^^^ (s.a &&& s.c) ^^^ (s.b &&& s.c)
  ⟨t1 + s0 + majority, s.a, s.b, s.c, s.d + t1, s.e, s.f, s.g⟩

/-- The word-wise sum of two states. -/
def State.add (s t : State) : State :=
  ⟨s.a + t.a, s.b + t.b, s.c + t.c, s.d + t.d, s.e + t.e, s.f + t.f, s.g + t.g, s.h + t.h⟩

/-- The state's words, first to last. -/
def State.words (s : State) : List UInt32 :=
  [s.a, s.b, s.c, s.d, s.e, s.f, s.g, s.h]

/-- The schedule word that follows those of `w`, which holds at least sixteen. -/
def nextWord (w : Array UInt32) : UInt32 :=
  let back (n : Nat) := w.getD (w.size - n) 0
  let x := back 15
  let y := back 2
  let s0 := rotate x 7 ^^^ rotate x 18 ^^^ (x >>> 3)
  let s1 := rotate y 17 ^^^ rotate y 19 ^^^ (y >>> 10)
  back 16 + s0 + back 7 + s1

/-- A block stretched by `n` further words. -/
def stretch : Nat → Array UInt32 → Array UInt32
  | 0, w => w
  | n + 1, w => stretch n (w.push (nextWord w))

/-- The big-endian word at `offset`. -/
def wordAt (data : ByteArray) (offset : Nat) : UInt32 :=
  let byte (i : Nat) := ((byteAt data (offset + i)).toUInt32)
  (byte 0 <<< 24) ||| (byte 1 <<< 16) ||| (byte 2 <<< 8) ||| byte 3

/-- The state after the block that starts at `offset`. -/
def State.block (s : State) (data : ByteArray) (offset : Nat) : State :=
  let words := stretch 48 ((Array.range 16).map fun i => wordAt data (offset + 4 * i))
  s.add ((roundConstants.zip words.toList).foldl (fun t (k, w) => t.round k w) s)

/-- A number as `width` bytes, most significant first. -/
def bigEndian (width n : Nat) : List UInt8 :=
  (List.range width).reverse.map fun i => UInt8.ofNat (n / Nat.pow 256 i % 256)

/-- The message with a one bit, zero bits and its length in bits, to a whole number of blocks. -/
def padded (message : ByteArray) : ByteArray :=
  let zeros := (119 - message.size % 64) % 64
  message ++ (0x80 :: List.replicate zeros 0 ++ bigEndian 8 (8 * message.size)).toByteArray

/-- The digest of a message. -/
def digest (message : ByteArray) : List UInt8 :=
  let data := padded message
  let final := (List.range (data.size / 64)).foldl (fun s i => s.block data (64 * i)) State.initial
  final.words.flatMap fun w => bigEndian 4 w.toNat

/-- The digest in hexadecimal. -/
def hexDigest (message : ByteArray) : String :=
  Hex.encode (digest message)

end SdkEvidence.Sha256
