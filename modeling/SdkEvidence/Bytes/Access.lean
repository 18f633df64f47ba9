/-!
# Bytes

Access to bytes by their index, and unsigned numbers of a fixed width in them.
-/
namespace SdkEvidence

/-! ## Bytes by their index -/

/-- Byte sequences are equal or not, which their bytes decide. -/
instance byteArrayDecidableEq : DecidableEq ByteArray := fun a b =>
  decidable_of_iff (a.data.toList = b.data.toList)
    ⟨fun h => ByteArray.ext (Array.ext' h), fun h => h ▸ rfl⟩

/-- The byte at an index, or zero beyond the end. -/
def byteAt (data : ByteArray) (i : Nat) : UInt8 :=
  if h : i < data.size then data.get i h else 0

end SdkEvidence

namespace SdkEvidence.LittleEndian

/-! ## Little-endian numbers

Unsigned numbers of a fixed width, least significant byte first, written to and read from byte
sequences.
-/

/-- The `width` low bytes of a number. -/
def bytes : Nat → Nat → List UInt8
  | 0, _ => []
  | width + 1, n => UInt8.ofNat (n % 256) :: bytes width (n / 256)

/-- The number that a byte sequence stands for. -/
def number : List UInt8 → Nat
  | [] => 0
  | b :: rest => b.toNat + 256 * number rest

/-- The number of `width` bytes at `offset`, if the data reach that far. -/
def numberAt? (data : ByteArray) (offset width : Nat) : Option Nat :=
  if offset + width ≤ data.size then
    some (number (data.extract offset (offset + width)).toList)
  else none

theorem length_bytes (width n : Nat) : (bytes width n).length = width := by
  induction width generalizing n with
  | zero => rfl
  | succ width ih => simp [bytes, ih]

/-- What is written is read back, if it fits. -/
theorem number_bytes (width n : Nat) (h : n < Nat.pow 256 width) : number (bytes width n) = n := by
  induction width generalizing n with
  | zero =>
    have hzero : n < 1 := h
    simp [bytes, number]; omega
  | succ width ih =>
    have hpow : Nat.pow 256 (width + 1) = 256 * Nat.pow 256 width := Nat.mul_comm _ _
    have hn : n / 256 < Nat.pow 256 width := Nat.div_lt_of_lt_mul (hpow ▸ h)
    simp only [bytes, number, ih _ hn, UInt8.toNat_ofNat']
    omega

end SdkEvidence.LittleEndian
