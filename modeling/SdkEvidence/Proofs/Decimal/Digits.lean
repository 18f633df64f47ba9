import Mathlib.Data.List.TakeWhile
import SdkEvidence.Decimal.Binary64

/-!
# Numbers as digits

The digits of a number stand for it (`foldl_toDigits`), and no zero is in front of others
(`head?_toDigits`). Numbers of sixty-four bits, and much greater ones, are near a floating-point
value (`ofDecimal?_isSome`).
-/
namespace SdkEvidence.Decimal

/-- The value of a run of digits after others. -/
theorem foldl_digits (ds : List Char) (init : Nat) :
    ds.foldl (fun n c => n * 10 + (c.toNat - 48)) init = Nat.ofDigitChars 10 ds init := by
  induction ds generalizing init with
  | nil => rfl
  | cons c rest ih => rw [List.foldl_cons, ih, Nat.ofDigitChars_cons, Nat.mul_comm]; rfl

/-- Zeros in front of the digits of a number do not count. -/
theorem foldl_toDigits (zeros n : Nat) :
    (List.replicate zeros '0' ++ Nat.toDigits 10 n).foldl (fun n c => n * 10 + (c.toNat - 48)) 0
      = n := by
  rw [foldl_digits, Nat.ofDigitChars_append, Nat.ofDigitChars_replicate_zero, Nat.mul_zero,
    Nat.ofDigitChars_ten_toDigits]

theorem isDigit_toDigits {n : Nat} {c : Char} (hc : c ∈ Nat.toDigits 10 n) : c.isDigit = true :=
  Nat.isDigit_of_mem_toDigits (by decide) (by decide) hc

/-- The digits of a number that is not zero start with another digit than zero. -/
theorem head?_toDigits {n : Nat} (hn : 0 < n) : (Nat.toDigits 10 n).head? ≠ some '0' := by
  induction n using Nat.strongRecOn with
  | ind n ih =>
    rcases Nat.lt_or_ge n 10 with hlt | hge
    · rw [Nat.toDigits_of_lt_base hlt]
      have hdigit : ∀ d < 10, 0 < d → [Nat.digitChar d].head? ≠ some '0' := by decide
      exact hdigit n hlt hn
    · have hshorter := ih (n / 10) (by omega) (by omega)
      rw [Nat.toDigits_of_base_le (by decide) hge]
      cases hd : Nat.toDigits 10 (n / 10) with
      | nil => exact absurd hd Nat.toDigits_ne_nil
      | cons d ds => rwa [hd] at hshorter

/-- The digits of a number start with a digit, and with a zero only where that is all. -/
theorem toDigits_cons (n : Nat) :
    ∃ d ds, Nat.toDigits 10 n = d :: ds ∧ d.isDigit = true ∧ (d = '0' → ds = []) := by
  rcases Nat.eq_zero_or_pos n with rfl | hn
  · exact ⟨'0', [], rfl, rfl, fun _ => rfl⟩
  · have hzero := head?_toDigits hn
    cases hd : Nat.toDigits 10 n with
    | nil => exact absurd hd Nat.toDigits_ne_nil
    | cons d ds =>
      refine ⟨d, ds, rfl, isDigit_toDigits (hd ▸ List.mem_cons_self), ?_⟩
      rintro rfl
      exact absurd (by rw [hd]; rfl) hzero

theorem ne_of_isDigit {d c : Char} (hd : d.isDigit = true) (hc : c.isDigit = false) : d ≠ c := by
  rintro rfl
  exact absurd hd (by rw [hc]; decide)

theorem notMem_toDigits {c : Char} (hc : c.isDigit = false) (n : Nat) : c ∉ Nat.toDigits 10 n :=
  fun hmem => ne_of_isDigit (isDigit_toDigits hmem) hc rfl

/-- Digits at the start of a text are all of the digits there, if no digit follows. -/
theorem takeWhile_digits {ds rest : List Char} (hds : ∀ c ∈ ds, c.isDigit = true)
    (hrest : ∀ c ∈ rest.head?, c.isDigit = false) :
    (ds ++ rest).takeWhile Char.isDigit = ds ∧ (ds ++ rest).dropWhile Char.isDigit = rest := by
  rw [List.takeWhile_append_of_pos hds, List.dropWhile_append_of_pos hds]
  cases rest with
  | nil => simp
  | cons c rest =>
    have hc := hrest c rfl
    simp [hc]

/-- A fraction that is not far beyond the greatest value has a nearest value. -/
theorem ofFraction?_isSome {num den : Nat} (h : (num.log2 : Int) - den.log2 ≤ 1000) :
    (Binary64.ofFraction? num den).isSome = true := by
  unfold Binary64.ofFraction?
  split
  next => rfl
  next =>
    extract_lets low ratio e m value
    have hlow : low ≤ 947 := by
      unfold low leastExponent
      omega
    have he : e ≤ 948 := by
      unfold e
      split <;> omega
    have hvalue : value.exponent ≤ 949 := by
      unfold value
      split
      next => exact Int.add_le_add_right he 1
      next => exact Int.le_trans he (by decide)
    rw [if_neg (by unfold greatestExponent; omega)]
    rfl

/-- Whole numbers of sixty-four bits are near a value. -/
theorem ofDecimal?_isSome {n : Nat} (hn : n < Nat.pow 2 64) :
    (Binary64.ofDecimal? n 0).isSome = true := by
  have hlength : (Nat.toDigits 10 n).length ≤ 20 :=
    (Nat.length_toDigits_le_iff (by decide) (by decide)).mpr (Nat.lt_of_lt_of_le hn (by decide))
  unfold Binary64.ofDecimal?
  dsimp only
  split
  · rfl
  next hne =>
    rw [if_neg (by omega), if_neg (by omega), if_pos (by decide)]
    have hone : tenTo (Int.toNat 0) = 1 := rfl
    rw [hone, Nat.mul_one]
    have hlog : n.log2 < 64 := (Nat.log2_lt hne).mpr hn
    refine ofFraction?_isSome ?_
    have hden : (1 : Nat).log2 = 0 := by decide
    omega

end SdkEvidence.Decimal
