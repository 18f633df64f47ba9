import Mathlib.Algebra.Order.Ring.Abs
import Mathlib.Tactic.Positivity
import Mathlib.Tactic.Ring
import SdkEvidence.Proofs.Decimal.Digits
import SdkEvidence.Proofs.Decimal.Rounding
import SdkEvidence.Proofs.Text.Pieces
import SdkEvidence.Report.InventoryLayout

/-!
# Sizes as they are read

The text of a size is a decimal and a unit. Read back as an exact amount it differs from the number
of bytes by at most a twentieth of its unit, and not at all in bytes (`tells_amount`). A boundary
between two units is a whole number of both, so an amount in the lesser unit is never above it and
one in the greater unit never below it. Amounts are therefore in the order of the numbers, across
the boundaries too (`bytes_amount_mono`, `text_faithful_ordered`).
-/
namespace SdkEvidence.Size

open Decimal

/-! ## Units and amounts -/

/-- The units in which sizes are shown. -/
inductive ByteUnit where
  | byte
  | kilobyte
  | megabyte
  deriving DecidableEq

def ByteUnit.bytes : ByteUnit → Nat
  | .byte => 1
  | .kilobyte => 1024
  | .megabyte => 1048576

def ByteUnit.named? : List Char → Option ByteUnit
  | ['B'] => some .byte
  | ['K', 'B'] => some .kilobyte
  | ['M', 'B'] => some .megabyte
  | _ => none

/-- A number of units, which need not be whole. -/
structure Amount where
  number : ℚ
  unit : ByteUnit
  deriving DecidableEq

def Amount.bytes (amount : Amount) : ℚ :=
  amount.number * amount.unit.bytes

/-- The number that digits stand for. -/
def digits? (ds : List Char) : Option Nat :=
  if !ds.isEmpty && ds.all Char.isDigit then some (Nat.ofDigitChars 10 ds 0) else none

/-- The exact number of a decimal, with or without a point and the digits of a fraction. -/
def decimal? (text : List Char) : Option ℚ :=
  match text.splitOn '.' with
  | [whole] => do
      let n ← digits? whole
      some (n : ℚ)
  | [whole, fraction] => do
      let n ← digits? whole
      let part ← digits? fraction
      some (n + part / 10 ^ fraction.length)
  | _ => none

/-- The amount of a text: a decimal, a space and the name of a unit. -/
def read? (text : String) : Option Amount :=
  match text.toList.splitOn ' ' with
  | [number, name] => do
      let number ← decimal? number
      let unit ← ByteUnit.named? name
      some { number, unit }
  | _ => none

/-- An amount tells a number of bytes in the greatest unit that the number reaches. In bytes it is
exact, in other units it has one decimal place and is as near as one allows; a tie goes to the even
digit. -/
structure Tells (shown : Amount) (n : Nat) : Prop where
  reached : shown.unit = .byte ∨ shown.unit.bytes ≤ n
  greatest : ∀ unit : ByteUnit, unit.bytes ≤ n → unit.bytes ≤ shown.unit.bytes
  whole : shown.unit = .byte → shown.bytes = n
  near : shown.unit ≠ .byte → |shown.bytes - n| ≤ shown.unit.bytes / 20
  tenths : ∃ t : Nat, shown.number = t / 10 ∧
    (|shown.bytes - n| = shown.unit.bytes / 20 → t % 2 = 0)

/-! ## Texts of decimals -/

theorem digits?_toDigits (n : Nat) : digits? (Nat.toDigits 10 n) = some n := by
  have hdigits : (!(Nat.toDigits 10 n).isEmpty && (Nat.toDigits 10 n).all Char.isDigit) = true := by
    rw [Bool.and_eq_true]
    constructor
    · simp
    · exact List.all_eq_true.mpr fun _ => isDigit_toDigits
  rw [digits?, if_pos hdigits, Nat.ofDigitChars_ten_toDigits]

theorem decimal?_toDigits (n : Nat) : decimal? (Nat.toDigits 10 n) = some (n : ℚ) := by
  have hsplit := Text.splitOn_of_notMem (notMem_toDigits (c := '.') (by decide) n)
  simp [decimal?, hsplit, digits?_toDigits]

/-- The digits of a number of tenths, with a point before the last one, stand for that many. -/
theorem decimal?_tenths (t : Nat) :
    decimal? (Nat.toDigits 10 (t / 10) ++ '.' :: Nat.toDigits 10 (t % 10)) = some (t / 10 : ℚ) := by
  have hpoint (n : Nat) := Text.splitOn_of_notMem (notMem_toDigits (c := '.') (by decide) n)
  have hlength : (Nat.toDigits 10 (t % 10)).length = 1 := by
    rw [Nat.toDigits_of_lt_base (Nat.mod_lt t (by decide))]
    rfl
  have hparts : ((t / 10 : Nat) : ℚ) + (t % 10 : Nat) / 10 = t / 10 := by
    have h : (10 : ℚ) * (t / 10 : Nat) + (t % 10 : Nat) = t := by
      exact_mod_cast Nat.div_add_mod t 10
    linarith
  simp [decimal?, List.splitOn_append_cons_self, hpoint, digits?_toDigits, hlength, hparts]

theorem read?_eq {text : String} {number name : List Char} {value : ℚ} {unit : ByteUnit}
    (htext : text.toList = number ++ ' ' :: name) (hnumber : ' ' ∉ number) (hname : ' ' ∉ name)
    (hvalue : decimal? number = some value) (hunit : ByteUnit.named? name = some unit) :
    read? text = some ⟨value, unit⟩ := by
  have hwords : text.toList.splitOn ' ' = [number, name] := by
    rw [htext, List.splitOn_append_cons_self, Text.splitOn_of_notMem hnumber,
      Text.splitOn_of_notMem hname]
    rfl
  simp [read?, hwords, hvalue, hunit]

/-! ## Amounts with one decimal place -/

/-- The greatest unit that a number of bytes reaches. -/
def unitOf (n : Nat) : ByteUnit :=
  if 1048576 ≤ n then .megabyte else if 1024 ≤ n then .kilobyte else .byte

/-- A number of bytes in a unit, to one decimal place. -/
def amountIn (unit : ByteUnit) (n : Nat) : Amount where
  number := roundDiv (n * 10) unit.bytes / 10
  unit := unit

theorem bytes_pos (unit : ByteUnit) : 0 < unit.bytes := by
  cases unit <;> decide

theorem abs_amountIn_sub (unit : ByteUnit) (n : Nat) :
    |(amountIn unit n).bytes - n|
      = |(roundDiv (n * 10) unit.bytes : ℚ) - (n * 10 : Nat) / unit.bytes|
        * (unit.bytes / 10) := by
  have hpos : (unit.bytes : ℚ) ≠ 0 := Nat.cast_ne_zero.mpr (Nat.ne_of_gt (bytes_pos unit))
  have hsub : (amountIn unit n).bytes - n
      = (roundDiv (n * 10) unit.bytes - (n * 10 : Nat) / unit.bytes) * (unit.bytes / 10) := by
    rw [Amount.bytes, amountIn]
    push_cast
    field_simp
  rw [hsub, abs_mul, abs_of_nonneg (by positivity : (0 : ℚ) ≤ unit.bytes / 10)]

theorem abs_amountIn_sub_le (unit : ByteUnit) (n : Nat) :
    |(amountIn unit n).bytes - n| ≤ unit.bytes / 20 := by
  have hnear := abs_roundDiv_sub_le (n * 10) (bytes_pos unit)
  have htenth : (0 : ℚ) ≤ unit.bytes / 10 := by positivity
  calc |(amountIn unit n).bytes - n| ≤ 1 / 2 * (unit.bytes / 10) := by
        rw [abs_amountIn_sub]
        exact mul_le_mul_of_nonneg_right hnear htenth
    _ = unit.bytes / 20 := by ring

theorem even_of_tie {unit : ByteUnit} {n : Nat}
    (htie : |(amountIn unit n).bytes - n| = unit.bytes / 20) :
    roundDiv (n * 10) unit.bytes % 2 = 0 := by
  have hpos : (0 : ℚ) < unit.bytes := Nat.cast_pos.mpr (bytes_pos unit)
  apply even_roundDiv_of_tie (bytes_pos unit)
  rw [abs_amountIn_sub] at htie
  apply mul_right_cancel₀ (ne_of_gt (div_pos hpos (by norm_num : (0 : ℚ) < 10)))
  rw [htie]
  ring

/-- A whole number of units is exact. -/
theorem bytes_amountIn_of_dvd {unit : ByteUnit} {n : Nat} (h : unit.bytes ∣ n) :
    (amountIn unit n).bytes = n := by
  obtain ⟨k, rfl⟩ := h
  have hround : roundDiv (unit.bytes * k * 10) unit.bytes = k * 10 := by
    rw [Nat.mul_assoc, Nat.mul_comm]
    exact roundDiv_mul_self (k * 10) (bytes_pos unit)
  rw [Amount.bytes, amountIn, hround]
  push_cast
  ring

/-- In bytes nothing is rounded. -/
theorem amountIn_byte (n : Nat) : amountIn .byte n = ⟨n, .byte⟩ := by
  have hround : roundDiv (n * 10) 1 = n * 10 := by
    have hself := roundDiv_mul_self (n * 10) Nat.one_pos
    rwa [Nat.mul_one] at hself
  have htenths : ((n * 10 : Nat) : ℚ) / 10 = n := by
    push_cast
    field_simp
  rw [amountIn, ByteUnit.bytes, hround, htenths]

theorem bytes_amountIn_mono (unit : ByteUnit) {m n : Nat} (h : m ≤ n) :
    (amountIn unit m).bytes ≤ (amountIn unit n).bytes := by
  have hround : roundDiv (m * 10) unit.bytes ≤ roundDiv (n * 10) unit.bytes :=
    roundDiv_mono (bytes_pos unit) (Nat.mul_le_mul_right 10 h)
  have hcast : (roundDiv (m * 10) unit.bytes : ℚ) ≤ roundDiv (n * 10) unit.bytes :=
    Nat.cast_le.mpr hround
  apply mul_le_mul_of_nonneg_right _ (Nat.cast_nonneg _)
  exact div_le_div_of_nonneg_right hcast (by norm_num)

/-! ## Changes of unit -/

theorem bytes_injective {less more : ByteUnit} : less.bytes = more.bytes → less = more := by
  cases less <;> cases more <;> decide

theorem bytes_dvd {less more : ByteUnit} : less.bytes ≤ more.bytes → less.bytes ∣ more.bytes := by
  cases less <;> cases more <;> decide

theorem unitOf_reached (n : Nat) : unitOf n = .byte ∨ (unitOf n).bytes ≤ n := by
  unfold unitOf
  split
  next hmega => exact Or.inr hmega
  next =>
    split
    next hkilo => exact Or.inr hkilo
    next => exact Or.inl rfl

theorem unitOf_greatest {unit : ByteUnit} {n : Nat} (h : unit.bytes ≤ n) :
    unit.bytes ≤ (unitOf n).bytes := by
  unfold unitOf
  split
  next => cases unit <;> decide
  next hmega =>
    split
    next =>
      cases unit with
      | byte => decide
      | kilobyte => decide
      | megabyte => exact absurd h hmega
    next hkilo =>
      cases unit with
      | byte => decide
      | kilobyte => exact absurd h hkilo
      | megabyte => exact absurd h hmega

/-- Between numbers in different units there is a boundary, a whole number of either unit. -/
theorem boundary_between {m n : Nat} (hmn : m ≤ n) (hunit : unitOf m ≠ unitOf n) :
    m ≤ (unitOf n).bytes ∧ (unitOf n).bytes ≤ n ∧ (unitOf m).bytes ∣ (unitOf n).bytes := by
  have hle : (unitOf m).bytes ≤ (unitOf n).bytes := by
    rcases unitOf_reached m with hbyte | hreached
    · rw [hbyte]
      exact bytes_pos (unitOf n)
    · exact unitOf_greatest (Nat.le_trans hreached hmn)
  have hlt : (unitOf m).bytes < (unitOf n).bytes :=
    Nat.lt_of_le_of_ne hle fun heq => hunit (bytes_injective heq)
  refine ⟨?_, ?_, bytes_dvd hle⟩
  · apply Nat.le_of_not_lt
    intro habove
    have hreached := unitOf_greatest (Nat.le_of_lt habove)
    omega
  · rcases unitOf_reached n with hbyte | hreached
    · have hpos := bytes_pos (unitOf m)
      rw [hbyte, ByteUnit.bytes] at hlt
      omega
    · exact hreached

/-- Amounts are in the order of the numbers, also where the unit changes. -/
theorem bytes_amount_mono {m n : Nat} (hmn : m ≤ n) :
    (amountIn (unitOf m) m).bytes ≤ (amountIn (unitOf n) n).bytes := by
  by_cases hunit : unitOf m = unitOf n
  · rw [hunit]
    exact bytes_amountIn_mono (unitOf n) hmn
  · -- the boundary is exact in both units
    obtain ⟨hbelow, habove, hdvd⟩ := boundary_between hmn hunit
    calc (amountIn (unitOf m) m).bytes
        ≤ (amountIn (unitOf m) (unitOf n).bytes).bytes := bytes_amountIn_mono _ hbelow
      _ = (unitOf n).bytes := bytes_amountIn_of_dvd hdvd
      _ = (amountIn (unitOf n) (unitOf n).bytes).bytes := (bytes_amountIn_of_dvd dvd_rfl).symm
      _ ≤ (amountIn (unitOf n) n).bytes := bytes_amountIn_mono _ habove

theorem tells_amount (n : Nat) : Tells (amountIn (unitOf n) n) n where
  reached := unitOf_reached n
  greatest := fun _ => unitOf_greatest
  whole := by
    intro (hbyte : unitOf n = .byte)
    rw [hbyte]
    exact bytes_amountIn_of_dvd (Nat.one_dvd n)
  near := fun _ => abs_amountIn_sub_le (unitOf n) n
  tenths := ⟨roundDiv (n * 10) (unitOf n).bytes, rfl, even_of_tie⟩

/-! ## Texts of sizes -/

/-- Numbers below fifty-three bits are precise. -/
theorem toPrecision_of_lt {n : Nat} (h : n < 2 ^ 53) : toPrecision n = n :=
  if_pos h

theorem read?_whole (n : Nat) : read? (toString n ++ " B") = some ⟨n, .byte⟩ := by
  have htext : (toString n ++ " B").toList = Nat.toDigits 10 n ++ ' ' :: ['B'] := by
    simp
  exact read?_eq htext (notMem_toDigits (by decide) n) (by decide) (decimal?_toDigits n) rfl

theorem read?_oneDecimal (n : Nat) (unit : ByteUnit) (name : List Char) {suffix : String}
    (hsuffix : suffix.toList = ' ' :: name) (hname : ' ' ∉ name)
    (hunit : ByteUnit.named? name = some unit) :
    read? (oneDecimal n unit.bytes ++ suffix) = some (amountIn unit n) := by
  have hspace (t : Nat) : ' ' ∉ Nat.toDigits 10 t := notMem_toDigits (by decide) t
  have htext : (oneDecimal n unit.bytes ++ suffix).toList
      = (Nat.toDigits 10 (roundDiv (n * 10) unit.bytes / 10) ++ '.' ::
          Nat.toDigits 10 (roundDiv (n * 10) unit.bytes % 10)) ++ ' ' :: name := by
    simp [oneDecimal, hsuffix]
  exact read?_eq htext (by simp [hspace]) hname (decimal?_tenths _) hunit

theorem read?_text {n : Nat} (h : n < 2 ^ 53) : read? (text n) = some (amountIn (unitOf n) n) := by
  unfold text
  dsimp only
  rw [toPrecision_of_lt h]
  split
  next hmega =>
    have hunit : unitOf n = .megabyte := if_pos hmega
    rw [hunit]
    exact read?_oneDecimal n .megabyte ['M', 'B'] (by decide) (by decide) rfl
  next hmega =>
    split
    next hkilo =>
      have hunit : unitOf n = .kilobyte := (if_neg hmega).trans (if_pos hkilo)
      rw [hunit]
      exact read?_oneDecimal n .kilobyte ['K', 'B'] (by decide) (by decide) rfl
    next hkilo =>
      have hunit : unitOf n = .byte := (if_neg hmega).trans (if_neg hkilo)
      rw [hunit, read?_whole, amountIn_byte]

/-- The text of a number of bytes below fifty-three bits is read back as an amount that tells the
number, and a greater number is never read back as a lesser amount. -/
theorem text_faithful_ordered :
    (∀ n < 2 ^ 53, ∃ shown, read? (text n) = some shown ∧ Tells shown n) ∧
    ∀ m n, m ≤ n → n < 2 ^ 53 → ∀ less more, read? (text m) = some less →
      read? (text n) = some more → less.bytes ≤ more.bytes := by
  constructor
  · intro n hn
    exact ⟨amountIn (unitOf n) n, read?_text hn, tells_amount n⟩
  · intro m n hmn hn less more hless hmore
    rw [read?_text (Nat.lt_of_le_of_lt hmn hn)] at hless
    rw [read?_text hn] at hmore
    cases hless
    cases hmore
    exact bytes_amount_mono hmn

example : text 1280 = "1.2 KB" ∧ text 1792 = "1.8 KB" := by decide

/-- The last numbers below a megabyte are shown as one, in kilobytes. -/
theorem text_faithful_ordered_boundary :
    text 1048525 = "1024.0 KB" ∧ text 1048576 = "1.0 MB" ∧ 1048525 ≤ 1048576 ∧ 1048576 < 2 ^ 53 ∧
    ∃ less more, read? (text 1048525) = some less ∧ read? (text 1048576) = some more ∧
      Tells less 1048525 ∧ Tells more 1048576 ∧ less.bytes ≤ more.bytes := by
  have hle : 1048525 ≤ 1048576 := by decide
  have hlt : 1048576 < 2 ^ 53 := by decide
  obtain ⟨less, hless, htells⟩ := text_faithful_ordered.1 1048525 (Nat.lt_of_le_of_lt hle hlt)
  obtain ⟨more, hmore, htells'⟩ := text_faithful_ordered.1 1048576 hlt
  have hordered := text_faithful_ordered.2 1048525 1048576 hle hlt less more hless hmore
  exact ⟨by decide, by decide, hle, hlt, less, more, hless, hmore, htells, htells', hordered⟩

end SdkEvidence.Size
