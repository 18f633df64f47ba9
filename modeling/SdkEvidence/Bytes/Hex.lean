/-!
# Hexadecimal text of bytes
-/
namespace SdkEvidence.Hex

/-- The lower-case hexadecimal digit of a number below sixteen. -/
def digit (n : Nat) : Char :=
  if n < 10 then Char.ofNat (48 + n) else Char.ofNat (87 + n)

/-- Two digits for each byte, the high half first. -/
def encode (bytes : List UInt8) : String :=
  String.ofList (bytes.flatMap fun b => [digit (b.toNat / 16), digit (b.toNat % 16)])

/-- The number that a hexadecimal digit of either case stands for. -/
def digitValue? (c : Char) : Option Nat :=
  if '0' ≤ c ∧ c ≤ '9' then some (c.toNat - 48)
  else if 'a' ≤ c ∧ c ≤ 'f' then some (c.toNat - 87)
  else if 'A' ≤ c ∧ c ≤ 'F' then some (c.toNat - 55)
  else none

/-- The number that a non-empty run of hexadecimal digits stands for. -/
def number? (digits : List Char) : Option Nat :=
  if digits.isEmpty then none
  else digits.foldlM (fun n c => (digitValue? c).map (n * 16 + ·)) 0

/-- Reads pairs of digits onto the bytes read before. -/
def decodeOnto (done : ByteArray) : List Char → Option ByteArray
  | [] => some done
  | [_] => none
  | high :: low :: rest =>
      match digitValue? high, digitValue? low with
      | some h, some l => decodeOnto (done.push (UInt8.ofNat (h * 16 + l))) rest
      | _, _ => none

/-- The bytes that a text of digit pairs stands for. -/
def decode? (text : String) : Option ByteArray :=
  decodeOnto ByteArray.empty text.toList

end SdkEvidence.Hex
