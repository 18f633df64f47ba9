/-!
# Bits of a byte sequence

Bytes as bits, least significant first, and numbers of a given width in the same order.
-/
namespace SdkEvidence.Bits

/-- The `width` low bits of a number, least significant first. -/
def ofNumber : Nat → Nat → List Bool
  | 0, _ => []
  | width + 1, n => (n % 2 == 1) :: ofNumber width (n / 2)

/-- The number that bits stand for, least significant first. -/
def toNumber : List Bool → Nat
  | [] => 0
  | b :: rest => b.toNat + 2 * toNumber rest

/-- The bits of a byte. -/
def ofByte (b : UInt8) : List Bool :=
  ofNumber 8 b.toNat

/-- The bits of a byte sequence. -/
def ofBytes (bytes : List UInt8) : List Bool :=
  bytes.flatMap ofByte

/-- Packs bits onto the bytes packed before; the last byte is filled up with zeros. -/
def packOnto (done : ByteArray) : List Bool → ByteArray
  | a :: b :: c :: d :: e :: f :: g :: h :: rest =>
      packOnto (done.push (UInt8.ofNat (toNumber [a, b, c, d, e, f, g, h]))) rest
  | [] => done
  | last => done.push (UInt8.ofNat (toNumber last))

/-- The bytes that hold the bits. -/
def toBytes (bits : List Bool) : ByteArray :=
  packOnto ByteArray.empty bits

/-- The number in the next `width` bits, and what follows them. -/
def takeNumber (width : Nat) (bits : List Bool) : Option (Nat × List Bool) :=
  let field := bits.take width
  if field.length = width then some (toNumber field, bits.drop width) else none

theorem toNumber_ofNumber (width n : Nat) : toNumber (ofNumber width n) = n % Nat.pow 2 width := by
  induction width generalizing n with
  | zero => simp [ofNumber, toNumber, Nat.mod_one]
  | succ width ih =>
    have hpow : Nat.pow 2 (width + 1) = 2 * Nat.pow 2 width := Nat.mul_comm _ _
    have hmod : n % Nat.pow 2 (width + 1) = n % 2 + 2 * (n / 2 % Nat.pow 2 width) := by
      rw [hpow, Nat.mod_mul]
    simp only [ofNumber, toNumber, ih, hmod]
    rcases Nat.mod_two_eq_zero_or_one n with h | h <;> simp [h]

end SdkEvidence.Bits
