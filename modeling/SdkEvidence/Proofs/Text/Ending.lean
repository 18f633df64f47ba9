import Mathlib.Data.List.Induction
import SdkEvidence.Proofs.Text.LetterCase
import SdkEvidence.Text.Search

/-!
# Endings in any case

A character whose lower-case form ends with an ASCII character is that character, its capital
letter, or the Kelvin sign for a `k` (`IsPlain.getLast?_lowerAt`). So a text ends with ASCII characters in
any case exactly if its lower-case form does (`endsWith_lower_iff`).
-/
namespace SdkEvidence.Text

/-- A code point is mapped by a row that it lies in, or is its own image. -/
theorem mapCase_eq (n : Nat) (rows : List CaseRow) :
    mapCase n rows = n ∨
      ∃ row ∈ rows, row.1 ≤ n ∧ n ≤ row.2.1 ∧ mapCase n rows = (n + row.2.2.2).toNat := by
  induction rows with
  | nil => exact Or.inl rfl
  | cons row rest ih =>
    obtain ⟨first, last, step, distance⟩ := row
    rw [mapCase]
    split
    next => exact Or.inl rfl
    next hfirst =>
      split
      next hrow =>
        have hlast : n ≤ last := by
          rw [Bool.and_eq_true, decide_eq_true_eq] at hrow
          exact hrow.1
        exact Or.inr ⟨_, List.mem_cons_self, Nat.le_of_not_lt hfirst, hlast, rfl⟩
      next =>
        refine ih.imp_right ?_
        rintro ⟨other, hmem, hrow⟩
        exact ⟨other, List.mem_cons_of_mem _ hmem, hrow⟩

/-- Apart from the capital letters and the Kelvin sign, no code point that moves is ASCII or moves
there. -/
theorem lowerRows_ascii : ∀ row ∈ lowerRows, row = (65, 90, 1, 32) ∨
    128 ≤ row.1 ∧ (row = (8490, 8490, 1, -8383) ∨ 128 ≤ (row.1 : Int) + row.2.2.2) := by
  decide +kernel

theorem lowerAt_capital {c : Char} (hc : c ∈ capitals) (before after : List Char) :
    lowerAt before c after = [c.toLower] := by
  have hcapitals : capitals.Forall fun c => c ≠ 'Σ' ∧ lowerAt [] c [] = [c.toLower] := by decide
  obtain ⟨hsigma, hform⟩ := List.forall_iff_forall_mem.mp hcapitals c hc
  rw [lowerAt_congr hsigma before after [] [], hform]

/-- The ASCII character that a character becomes in lower case, if it becomes one. -/
def lowerForm (c : Char) : Char :=
  if c = '\u212a' then 'k' else c.toLower

theorem lowerForm_of_capital {c : Char} (hc : c ∈ capitals) : lowerForm c = c.toLower := by
  have hcapitals : capitals.Forall fun c => lowerForm c = c.toLower := by decide
  exact List.forall_iff_forall_mem.mp hcapitals c hc

/-- An ASCII character that is in lower case already. -/
structure IsPlain (t : Char) : Prop where
  ascii : t.toNat < 128
  not_capital : t ∉ capitals
  not_nul : t ≠ '\x00'

instance (t : Char) : Decidable (IsPlain t) :=
  decidable_of_iff (t.toNat < 128 ∧ t ∉ capitals ∧ t ≠ '\x00')
    ⟨fun ⟨hascii, hcapital, hnul⟩ => ⟨hascii, hcapital, hnul⟩,
      fun h => ⟨h.ascii, h.not_capital, h.not_nul⟩⟩

namespace IsPlain

variable {t : Char}

theorem ne_of_large (h : IsPlain t) {c : Char} (hc : 128 ≤ c.toNat) : c ≠ t := by
  rintro rfl
  exact absurd h.ascii (Nat.not_lt.mpr hc)

theorem ofNat_ne (h : IsPlain t) {n : Nat} (hn : 128 ≤ n) : Char.ofNat n ≠ t := by
  by_cases hvalid : n.isValidChar
  · have htoNat : (Char.ofNat n).toNat = n := by
      rw [Char.ofNat, dif_pos hvalid]
      rfl
    exact h.ne_of_large (htoNat.symm ▸ hn)
  · rw [Char.ofNat, dif_neg hvalid]
    exact h.not_nul.symm

/-- Only itself stands for a plain character in the table, apart from its capital letter and the
Kelvin sign. -/
theorem ofNat_mapCase (h : IsPlain t) {c : Char} (hc : c ∉ capitals) (hkelvin : c ≠ '\u212a') :
    Char.ofNat (mapCase c.toNat lowerRows) = t ↔ c = t := by
  rcases mapCase_eq c.toNat lowerRows with hsame | ⟨row, hrow, hfirst, hlast, himage⟩
  · rw [hsame, Char.ofNat_toNat]
  · rcases lowerRows_ascii row hrow with rfl | ⟨hfar, rfl | hmoved⟩
    · exact absurd (mem_capitals hfirst hlast) hc
    · have hkelvin' : c.toNat = 8490 := Nat.le_antisymm hlast hfirst
      exact absurd (Char.toNat_inj.mp hkelvin') hkelvin
    · refine iff_of_false (h.ofNat_ne ?_) (h.ne_of_large (Nat.le_trans hfar hfirst))
      omega

/-- The forms that end with a plain character are its own, that of its capital letter, and that of
the Kelvin sign if it is a `k`. -/
theorem getLast?_lowerAt (h : IsPlain t) (before : List Char) (c : Char) (after : List Char) :
    (lowerAt before c after).getLast? = some t ↔ lowerForm c = t := by
  by_cases hc : c ∈ capitals
  · simp [lowerAt_capital hc, lowerForm_of_capital hc]
  by_cases hkelvin : c = '\u212a'
  · have hform : lowerAt [] '\u212a' [] = ['k'] := by decide
    rw [hkelvin, lowerAt_congr (by decide) before after [] [], hform, lowerForm, if_pos rfl,
      List.getLast?_singleton, Option.some_inj]
  -- no other character becomes a plain one, not even a sigma or a dotted capital
  rw [lowerForm, if_neg hkelvin, (mem_capitals_or_toLower_eq c).resolve_left hc]
  unfold lowerAt
  split
  next hsigma =>
    have hform : lowerSigma before after ≠ t := by
      unfold lowerSigma
      split
      next => exact h.ne_of_large (by decide)
      next => exact h.ne_of_large (by decide)
    simp [hform, h.ne_of_large (c := c) (by rw [hsigma]; decide)]
  next =>
    split
    next hdotted =>
      have hdot : '\u0307' ≠ t := h.ne_of_large (by decide)
      simp [hdot, h.ne_of_large (c := c) (by rw [hdotted]; decide)]
    next =>
      rw [List.getLast?_singleton, Option.some_inj]
      exact h.ofNat_mapCase hc hkelvin

theorem lowerAt_of_lowerForm (h : IsPlain t) {c : Char} (hc : lowerForm c = t)
    (before after : List Char) : lowerAt before c after = [t] := by
  have hlast := (h.getLast?_lowerAt before c after).mpr hc
  unfold lowerAt at hlast ⊢
  repeat' split at hlast
  next hsigma => simpa [hsigma] using hlast
  next => exact absurd (Option.some_inj.mp hlast) (h.ne_of_large (by decide))
  next hsigma hdotted => simpa [hsigma, hdotted] using hlast

end IsPlain

theorem lowerBetween_concat (before front : List Char) (c : Char) (after : List Char) :
    lowerBetween before (front ++ [c]) after
      = lowerBetween before front (c :: after) ++ lowerAt (front.reverse ++ before) c after := by
  induction front generalizing before with
  | nil => simp [lowerBetween]
  | cons first rest ih => simp [lowerBetween, ih]

/-- Whether a text ends with plain characters in any case shows in its lower-case form, from its end
on character by character. -/
theorem suffix_lowerBetween_iff {tail : List Char} (htail : ∀ t ∈ tail, IsPlain t)
    (before text after : List Char) :
    tail <:+ lowerBetween before text after ↔ tail <:+ text.map lowerForm := by
  induction tail using List.reverseRecOn generalizing text after with
  | nil => simp
  | append_singleton tail t ih =>
    have hplain : IsPlain t := htail t (by simp)
    have htail : ∀ t ∈ tail, IsPlain t := fun t ht => htail t (by simp [ht])
    rcases List.eq_nil_or_concat text with rfl | ⟨front, c, rfl⟩
    · simp [lowerBetween]
    · rw [List.concat_eq_append, lowerBetween_concat, List.map_append, List.map_singleton]
      by_cases hc : lowerForm c = t
      · rw [hplain.lowerAt_of_lowerForm hc, hc, List.suffix_concat_iff, List.suffix_concat_iff]
        simp [ih htail front (c :: after)]
      · refine iff_of_false (fun hsuffix => hc ?_) (fun hsuffix => hc ?_)
        · obtain ⟨more, hmore⟩ := hsuffix
          have hlast := congrArg List.getLast? hmore
          rw [← List.append_assoc, List.getLast?_concat,
            List.getLast?_append_of_ne_nil _ (lowerAt_ne_nil _ _ c)] at hlast
          exact (hplain.getLast?_lowerAt _ c after).mp hlast.symm
        · obtain ⟨more, hmore⟩ := hsuffix
          have hlast := congrArg List.getLast? hmore
          rw [← List.append_assoc, List.getLast?_concat, List.getLast?_concat] at hlast
          exact (Option.some_inj.mp hlast).symm

theorem endsWith_lower_iff {tail : List Char} (htail : tail.Forall IsPlain) (text : List Char) :
    endsWith tail (lower text) = true ↔ tail <:+ text.map lowerForm := by
  rw [endsWith, List.isSuffixOf_iff_suffix, lower_eq_lowerBetween]
  exact suffix_lowerBetween_iff (List.forall_iff_forall_mem.mp htail) [] text []

/-- Maps that reach each character of a word from the same characters reach the word from the same
texts. -/
theorem eq_map_congr {f g : Char → Char} {word : List Char}
    (h : ∀ t ∈ word, ∀ c, f c = t ↔ g c = t) (text : List Char) :
    word = text.map f ↔ word = text.map g := by
  constructor
  · rintro rfl
    exact List.map_congr_left fun c hc => ((h _ (List.mem_map_of_mem hc) c).mp rfl).symm
  · rintro rfl
    exact List.map_congr_left fun c hc => ((h _ (List.mem_map_of_mem hc) c).mpr rfl).symm

/-- Without a `k`, nothing but the case of ASCII letters is lost to an ending in lower case. -/
theorem endsWith_lower_iff_toLower {tail : List Char} (htail : tail.Forall IsPlain)
    (hkelvin : 'k' ∉ tail) (text : List Char) :
    endsWith tail (lower text) = true ↔ tail <:+ text.map Char.toLower := by
  rw [endsWith_lower_iff htail, List.suffix_map_iff, List.suffix_map_iff]
  refine exists_congr fun back => and_congr_right fun _ => eq_map_congr (fun t ht c => ?_) back
  unfold lowerForm
  split
  next hc =>
    have hplain := List.forall_iff_forall_mem.mp htail t ht
    refine iff_of_false (ne_of_mem_of_not_mem ht hkelvin).symm ?_
    rw [hc]
    exact hplain.ne_of_large (by decide)
  next => rfl

end SdkEvidence.Text
