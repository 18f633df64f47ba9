import Mathlib.Data.List.Infix
import SdkEvidence.Text.Search

/-!
# Texts that contain a needle

What a lead is taken off stands behind it (`dropLead?_eq_some_iff`). A text contains a needle when
the needle is a run of its characters (`contains_iff_isInfix`). A
needle that is not empty occurs at least once in exactly those texts (`occurrences_pos_iff`).
-/
namespace SdkEvidence.Text

theorem dropLead?_eq_some_iff {lead text rest : List Char} :
    dropLead? lead text = some rest ↔ text = lead ++ rest := by
  rw [dropLead?, Option.ite_none_right_eq_some, List.isPrefixOf_iff_prefix, Option.some_inj]
  constructor
  · rintro ⟨⟨more, rfl⟩, rfl⟩
    rw [List.drop_left]
  · rintro rfl
    exact ⟨List.prefix_append _ _, List.drop_left⟩

theorem contains_iff_isInfix {needle text : List Char} :
    contains needle text = true ↔ needle <:+: text := by
  induction text with
  | nil => simp [contains]
  | cons c rest ih => simp [contains, List.infix_cons_iff, ih]

theorem le_countFrom (needle : List Char) (skip found : Nat) (text : List Char) :
    found ≤ countFrom needle skip found text := by
  induction text generalizing skip found with
  | nil => exact le_refl found
  | cons c rest ih =>
    cases skip with
    | succ skip => exact ih skip found
    | zero =>
      rw [countFrom]
      split
      next => exact (Nat.le_succ found).trans (ih _ _)
      next => exact ih 0 found

/-- The count grows exactly where the needle stands somewhere in what is read. -/
theorem lt_countFrom_iff {needle : List Char} (hneedle : needle ≠ []) (found : Nat)
    (text : List Char) : found < countFrom needle 0 found text ↔ needle <:+: text := by
  induction text generalizing found with
  | nil => simp [countFrom, hneedle]
  | cons c rest ih =>
    rw [countFrom, List.infix_cons_iff]
    split
    next hhere =>
      have hgrows : found < countFrom needle (needle.length - 1) (found + 1) rest :=
        le_countFrom needle _ (found + 1) rest
      simp [hgrows, List.isPrefixOf_iff_prefix.mp hhere]
    next hnot =>
      rw [ih found, ← List.isPrefixOf_iff_prefix]
      simp [hnot]

theorem occurrences_pos_iff {needle text : List Char} (hneedle : needle ≠ []) :
    0 < occurrences needle text ↔ contains needle text = true := by
  rw [contains_iff_isInfix, occurrences, if_neg (by simpa using hneedle)]
  exact lt_countFrom_iff hneedle 0 text

end SdkEvidence.Text
