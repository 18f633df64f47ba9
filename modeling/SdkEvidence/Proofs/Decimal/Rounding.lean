import Mathlib.Algebra.Order.Field.Rat
import Mathlib.Algebra.Order.Group.Abs
import Mathlib.Data.Nat.Cast.Order.Ring
import Mathlib.Tactic.FieldSimp
import Mathlib.Tactic.Linarith
import SdkEvidence.Decimal.Binary64

/-!
# Rounded quotients among the rational numbers

A rounded quotient is at most a half from the exact one (`abs_roundDiv_sub_le`), and even if it is
just as far (`even_roundDiv_of_tie`). A whole quotient stays as it is (`roundDiv_mul_self`), and
rounding keeps the order (`roundDiv_mono`).
-/
namespace SdkEvidence.Decimal

variable {num den : Nat}

theorem abs_roundDiv_sub_le (num : Nat) (h : 0 < den) :
    |(roundDiv num den : ℚ) - num / den| ≤ 1 / 2 := by
  have hden : (0 : ℚ) < den := Nat.cast_pos.mpr h
  have hlow : 2 * ((roundDiv num den : ℚ) * den) ≤ 2 * num + den := by
    exact_mod_cast two_mul_roundDiv_le num den h
  have hhigh : 2 * (num : ℚ) ≤ 2 * (roundDiv num den * den) + den := by
    exact_mod_cast le_two_mul_roundDiv num den h
  rw [abs_sub_le_iff]
  constructor
  · field_simp
    linarith
  · field_simp
    linarith

/-- A number halfway between two multiples goes to the even one. -/
theorem roundDiv_even_of_half (h : 0 < den)
    (hhalf : 2 * (roundDiv num den * den) = 2 * num + den ∨
      2 * num = 2 * (roundDiv num den * den) + den) : roundDiv num den % 2 = 0 := by
  have hparts := Nat.div_add_mod num den
  have hrest := Nat.mod_lt num h
  rw [Nat.mul_comm] at hparts
  revert hhalf
  unfold roundDiv
  dsimp only
  split
  next => omega
  next =>
    split
    next => rw [Nat.add_mul]; omega
    next => split <;> omega

theorem even_roundDiv_of_tie (h : 0 < den)
    (htie : |(roundDiv num den : ℚ) - num / den| = 1 / 2) : roundDiv num den % 2 = 0 := by
  have hden : (den : ℚ) ≠ 0 := Nat.cast_ne_zero.mpr (Nat.ne_of_gt h)
  apply roundDiv_even_of_half h
  rcases (abs_eq (by norm_num)).mp htie with habove | hbelow
  · left
    field_simp at habove
    have hscaled : 2 * ((roundDiv num den : ℚ) * den) = 2 * num + den := by linarith
    exact_mod_cast hscaled
  · right
    field_simp at hbelow
    have hscaled : 2 * (num : ℚ) = 2 * (roundDiv num den * den) + den := by linarith
    exact_mod_cast hscaled

theorem roundDiv_mul_self (q : Nat) (h : 0 < den) : roundDiv (q * den) den = q := by
  have hrest : q * den % den = 0 := Nat.mul_mod_left q den
  have hquotient : q * den / den = q := Nat.mul_div_cancel q h
  unfold roundDiv
  dsimp only
  rw [hrest, hquotient, if_pos (by omega)]

/-- Were the order turned, the lesser number would be above the middle of the two rounded quotients
and the greater one below it. -/
theorem roundDiv_mono (h : 0 < den) {m n : Nat} (hmn : m ≤ n) :
    roundDiv m den ≤ roundDiv n den := by
  rcases Nat.eq_or_lt_of_le hmn with heq | hlt
  · rw [heq]
  · apply Nat.le_of_not_lt
    intro hturned
    have habove := two_mul_roundDiv_le m den h
    have hbelow := le_two_mul_roundDiv n den h
    have hstep : (roundDiv n den + 1) * den ≤ roundDiv m den * den :=
      Nat.mul_le_mul_right den hturned
    rw [Nat.add_mul] at hstep
    omega

end SdkEvidence.Decimal
