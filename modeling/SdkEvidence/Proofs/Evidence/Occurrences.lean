import Mathlib.Data.Finset.Card
import Mathlib.Order.Bounds.Basic
import SdkEvidence.Proofs.Evidence.Keyword

/-!
# The most occurrences without overlap

Taking each occurrence as early as possible gives as many as any choice of occurrences that do not
overlap (`Text.occurrences_isGreatest`): the occurrence that is taken first can stand in for the
only one of another choice that it overlaps. So a count says how often a keyword can stand in a text at
most (`Keyword.occurrences_most`).
-/
namespace SdkEvidence

namespace Text

/-- Places where a needle stands in a text. No two of these occurrences overlap. -/
structure IsApart (needle text : List Char) (starts : Finset ℕ) : Prop where
  stands : ∀ i ∈ starts, needle <+: text.drop i
  apart : ∀ i ∈ starts, ∀ j ∈ starts, i ≠ j → i + needle.length ≤ j ∨ j + needle.length ≤ i

namespace IsApart

variable {needle text rest : List Char} {c : Char} {starts later : Finset ℕ}

theorem empty (needle text : List Char) : IsApart needle text ∅ :=
  ⟨by simp, by simp⟩

theorem eq_empty_of_nil (hneedle : needle ≠ []) (h : IsApart needle [] starts) : starts = ∅ := by
  rw [Finset.eq_empty_iff_forall_notMem]
  intro i hi
  have hstands := h.stands i hi
  rw [List.drop_nil, List.prefix_nil] at hstands
  exact hneedle hstands

theorem subset {fewer : Finset ℕ} (h : IsApart needle text starts) (hsub : fewer ⊆ starts) :
    IsApart needle text fewer :=
  ⟨fun i hi => h.stands i (hsub hi), fun i hi j hj => h.apart i (hsub hi) j (hsub hj)⟩

/-- Occurrences in the rest of a text are those in the text that are not at its start. -/
theorem image_succ_iff : IsApart needle (c :: rest) (later.image Nat.succ)
    ↔ IsApart needle rest later := by
  constructor
  · intro h
    constructor
    · intro k hk
      exact h.stands (k + 1) (Finset.mem_image_of_mem _ hk)
    · intro k hk l hl hne
      have hapart := h.apart (k + 1) (Finset.mem_image_of_mem _ hk) (l + 1)
        (Finset.mem_image_of_mem _ hl) (by omega)
      omega
  · intro h
    constructor
    · intro i hi
      obtain ⟨k, hk, rfl⟩ := Finset.mem_image.mp hi
      exact h.stands k hk
    · intro i hi j hj hne
      obtain ⟨k, hk, rfl⟩ := Finset.mem_image.mp hi
      obtain ⟨l, hl, rfl⟩ := Finset.mem_image.mp hj
      have hapart := h.apart k hk l hl (by rintro rfl; exact hne rfl)
      omega

/-- Places that are not the start are one behind places in the rest. -/
theorem exists_image_succ (hzero : 0 ∉ starts) :
    ∃ later : Finset ℕ, starts = later.image Nat.succ := by
  refine ⟨starts.image Nat.pred, ?_⟩
  rw [Finset.image_image]
  have hback : ∀ i ∈ starts, (Nat.succ ∘ Nat.pred) i = i := by
    intro i hi
    refine Nat.succ_pred ?_
    rintro rfl
    exact hzero hi
  rw [Finset.image_congr hback, Finset.image_id']

/-- At most one occurrence starts where the needle, standing at the start of the text, would
reach. -/
theorem card_near_le_one (h : IsApart needle text starts) :
    (starts.filter fun i => ¬needle.length ≤ i).card ≤ 1 := by
  rw [Finset.card_le_one]
  intro i hi j hj
  obtain ⟨hi, hnear⟩ := Finset.mem_filter.mp hi
  obtain ⟨hj, hnear'⟩ := Finset.mem_filter.mp hj
  by_contra hne
  have hapart := h.apart i hi j hj hne
  omega

/-- An occurrence at the start goes with occurrences that start behind it. -/
theorem insert_zero (h : IsApart needle text starts) (hfirst : needle <+: text)
    (hfar : ∀ i ∈ starts, needle.length ≤ i) : IsApart needle text (insert 0 starts) := by
  constructor
  · intro i hi
    rcases Finset.mem_insert.mp hi with rfl | hi
    · exact hfirst
    · exact h.stands i hi
  · intro i hi j hj hne
    rcases Finset.mem_insert.mp hi with rfl | hi
    · rcases Finset.mem_insert.mp hj with rfl | hj
      · exact absurd rfl hne
      · exact Or.inl (by simpa using hfar j hj)
    · rcases Finset.mem_insert.mp hj with rfl | hj
      · exact Or.inr (by simpa using hfar i hi)
      · exact h.apart i hi j hj hne

end IsApart

theorem countFrom_eq_add (needle : List Char) (skip found : ℕ) (text : List Char) :
    countFrom needle skip found text = found + countFrom needle skip 0 text := by
  induction text generalizing skip found with
  | nil => rfl
  | cons c rest ih =>
    cases skip with
    | succ skip => exact ih skip found
    | zero =>
      rw [countFrom, countFrom]
      split
      next => rw [ih _ (found + 1), ih _ (0 + 1)]; omega
      next => exact ih 0 found

variable {needle : List Char}

/-- No choice of occurrences that do not start within what is skipped has more than are counted. -/
theorem card_le_countFrom (hneedle : needle ≠ []) (text : List Char) (skip : ℕ)
    (starts : Finset ℕ) (h : IsApart needle text starts) (hskip : ∀ i ∈ starts, skip ≤ i) :
    starts.card ≤ countFrom needle skip 0 text := by
  have hlength : 0 < needle.length := List.length_pos_iff.mpr hneedle
  induction text generalizing skip starts with
  | nil => simp [h.eq_empty_of_nil hneedle]
  | cons c rest ih =>
    -- what holds of places in the rest, for places in the text of which none is the start
    have hrest (skip : ℕ) {far : Finset ℕ} (hfar : IsApart needle (c :: rest) far)
        (hbehind : ∀ i ∈ far, skip + 1 ≤ i) : far.card ≤ countFrom needle skip 0 rest := by
      obtain ⟨later, rfl⟩ := IsApart.exists_image_succ fun hzero => by
        have := hbehind 0 hzero
        omega
      rw [Finset.card_image_of_injective _ Nat.succ_injective]
      refine ih skip later (IsApart.image_succ_iff.mp hfar) fun k hk => ?_
      exact Nat.le_of_succ_le_succ (hbehind (k + 1) (Finset.mem_image_of_mem _ hk))
    cases skip with
    | succ skip => exact hrest skip h hskip
    | zero =>
      rw [countFrom]
      split
      next hfirst =>
        have hsplit := Finset.card_filter_add_card_filter_not (s := starts)
          fun i => needle.length ≤ i
        have hnear := h.card_near_le_one
        have hfar := hrest (needle.length - 1)
          (h.subset (Finset.filter_subset (fun i => needle.length ≤ i) starts)) fun i hi => by
            have := (Finset.mem_filter.mp hi).2
            omega
        rw [countFrom_eq_add]
        omega
      next hnot =>
        refine hrest 0 h fun i hi => Nat.pos_of_ne_zero ?_
        rintro rfl
        exact hnot (List.isPrefixOf_iff_prefix.mpr (h.stands 0 hi))

/-- The occurrences that are counted can be chosen. -/
theorem exists_card_eq_countFrom (hneedle : needle ≠ []) (text : List Char) (skip : ℕ) :
    ∃ starts, IsApart needle text starts ∧ (∀ i ∈ starts, skip ≤ i) ∧
      starts.card = countFrom needle skip 0 text := by
  have hlength : 0 < needle.length := List.length_pos_iff.mpr hneedle
  induction text generalizing skip with
  | nil => exact ⟨∅, IsApart.empty _ _, by simp, rfl⟩
  | cons c rest ih =>
    -- the choice in the rest, as places in the text
    have hrest (skip : ℕ) : ∃ starts, IsApart needle (c :: rest) starts ∧
        (∀ i ∈ starts, skip + 1 ≤ i) ∧ starts.card = countFrom needle skip 0 rest := by
      obtain ⟨later, hlater, hskip, hcard⟩ := ih skip
      refine ⟨later.image Nat.succ, IsApart.image_succ_iff.mpr hlater, fun i hi => ?_, ?_⟩
      · obtain ⟨k, hk, rfl⟩ := Finset.mem_image.mp hi
        exact Nat.succ_le_succ (hskip k hk)
      · rw [Finset.card_image_of_injective _ Nat.succ_injective, hcard]
    cases skip with
    | succ skip => exact hrest skip
    | zero =>
      rw [countFrom]
      split
      next hfirst =>
        obtain ⟨starts, hstarts, hskip, hcard⟩ := hrest (needle.length - 1)
        rw [Nat.sub_add_cancel hlength] at hskip
        have hzero : 0 ∉ starts := fun hmem => absurd (hskip 0 hmem) (by omega)
        refine ⟨insert 0 starts, ?_, fun i _ => Nat.zero_le i, ?_⟩
        · exact hstarts.insert_zero (List.isPrefixOf_iff_prefix.mp hfirst) hskip
        · rw [Finset.card_insert_of_notMem hzero, hcard, countFrom_eq_add _ _ (0 + 1)]
          omega
      next =>
        obtain ⟨starts, hstarts, -, hcard⟩ := hrest 0
        exact ⟨starts, hstarts, fun i _ => Nat.zero_le i, hcard⟩

/-- As many occurrences are counted as can be chosen without overlap. -/
theorem occurrences_isGreatest (hneedle : needle ≠ []) (text : List Char) :
    IsGreatest {n | ∃ starts, IsApart needle text starts ∧ starts.card = n}
      (occurrences needle text) := by
  rw [occurrences, if_neg (by simpa using hneedle)]
  constructor
  · obtain ⟨starts, hstarts, -, hcard⟩ := exists_card_eq_countFrom hneedle text 0
    exact ⟨starts, hstarts, hcard⟩
  · rintro n ⟨starts, hstarts, rfl⟩
    exact card_le_countFrom hneedle text 0 starts hstarts fun i _ => Nat.zero_le i

/-- A needle may overlap itself. -/
example : occurrences "aa".toList "aaaaa".toList = 2 := by decide

end Text

namespace Keyword

/-- The occurrences of a keyword are the most that can be chosen without overlap in the lower-case
form of a text; a keyword whose lower-case form is empty has none. A keyword that is not empty
occurs exactly where it is found. -/
theorem occurrences_most (keyword : Keyword) (haystack : List Char) :
    (keyword.needle = [] → keyword.occurrences haystack = 0) ∧
    (keyword.needle ≠ [] →
      IsGreatest {n | ∃ starts, Text.IsApart keyword.needle (Text.lower haystack) starts ∧
        starts.card = n} (keyword.occurrences haystack)) ∧
    (keyword.text ≠ "" → (0 < keyword.occurrences haystack ↔ keyword.isIn haystack = true)) := by
  refine ⟨fun hempty => ?_, fun hneedle => ?_, fun htext => ?_⟩
  · simp [occurrences, Text.occurrences, hempty]
  · exact Text.occurrences_isGreatest hneedle (Text.lower haystack)
  · exact one_le_occurrences_iff htext haystack

end Keyword
end SdkEvidence
