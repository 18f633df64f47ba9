import SdkEvidence.Evidence.Keyword
import SdkEvidence.Proofs.Text.Lower
import SdkEvidence.Proofs.Text.Search

/-!
# Keywords that stand verbatim in a text

A text that contains a keyword letter by letter counts as soon as the capital sigmas of the keyword
have the same forms there as in the keyword alone. Those keywords whose sigmas have the same forms
everywhere are exactly those that are never missed (`isIn_verbatim`).
-/
namespace SdkEvidence

theorem eq_of_isInfix_cons {α : Type} {mark : α} {needle text : List α}
    (hlength : needle.length = text.length) (hmark : needle.head? ≠ some mark)
    (h : needle <:+: mark :: text) : needle = text := by
  rcases List.infix_cons_iff.mp h with hfront | hrest
  · cases needle with
    | nil => exact (List.length_eq_zero_iff.mp hlength.symm).symm
    | cons first rest =>
      obtain ⟨hfirst, -⟩ := List.cons_prefix_cons.mp hfront
      exact absurd (congrArg some hfirst) hmark
  · exact hrest.eq_of_length hlength

theorem eq_of_isInfix_concat {α : Type} {mark : α} {needle text : List α}
    (hlength : needle.length = text.length) (hmark : needle.getLast? ≠ some mark)
    (h : needle <:+: text ++ [mark]) : needle = text := by
  have hreverse : needle.reverse <:+: mark :: text.reverse := by
    simpa using List.reverse_infix.mpr h
  refine List.reverse_injective (eq_of_isInfix_cons ?_ ?_ hreverse)
  · rw [List.length_reverse, List.length_reverse, hlength]
  · rwa [List.head?_reverse]

namespace Keyword

open Text

theorem needle_ne_nil {keyword : Keyword} (h : keyword.text ≠ "") : keyword.needle ≠ [] := by
  have htext : keyword.text.toList ≠ [] := by simpa using h
  exact lower_eq_nil_iff.not.mpr htext

/-- A keyword that is not empty stands in a text exactly where it occurs there. -/
theorem one_le_occurrences_iff {keyword : Keyword} (h : keyword.text ≠ "") (haystack : List Char) :
    1 ≤ keyword.occurrences haystack ↔ keyword.isIn haystack = true :=
  occurrences_pos_iff (needle_ne_nil h)

theorem isIn_of_keepsSigmas {keyword : Keyword} {before after : List Char}
    (h : KeepsSigmas before keyword.text.toList after) :
    keyword.isIn (before ++ keyword.text.toList ++ after) = true := by
  rw [isIn, contains_iff_isInfix, lower_append_append, lowerBetween_eq_lower_iff.mpr h]
  exact List.infix_append _ _ _

/-- A character with a case, which is not passed over and does not change in lower case. -/
structure IsMark (mark : Char) : Prop where
  cased : nearestIsCased [mark] = true
  lower : ∀ before after, lowerAt before mark after = [mark]

theorem isMark_a : IsMark 'a' :=
  ⟨by decide, fun before after => lowerAt_congr (by decide) before after [] []⟩

theorem isMark_b : IsMark 'b' :=
  ⟨by decide, fun before after => lowerAt_congr (by decide) before after [] []⟩

/-- One of two marks is not the character to be avoided. -/
theorem exists_isMark (avoided : Option Char) : ∃ mark, IsMark mark ∧ avoided ≠ some mark := by
  by_cases ha : avoided = some 'a'
  · exact ⟨'b', isMark_b, by rw [ha]; decide⟩
  · exact ⟨'a', isMark_a, ha⟩

/-- A keyword that is found after any one character keeps its sigmas after some mark: the mark is
not what its lower-case form begins with, so it is found behind the mark. -/
theorem keepsSigmas_after_mark {keyword : Keyword}
    (h : ∀ mark, keyword.isIn ([mark] ++ keyword.text.toList ++ []) = true) :
    ∃ mark, IsMark mark ∧ KeepsSigmas [mark] keyword.text.toList [] := by
  obtain ⟨mark, hmark, havoided⟩ := exists_isMark keyword.needle.head?
  refine ⟨mark, hmark, lowerBetween_eq_lower_iff.mp (Eq.symm ?_)⟩
  have hfound := contains_iff_isInfix.mp (h mark)
  rw [lower_append_append] at hfound
  simp only [lowerBetween, hmark.lower, lowerFrom, List.append_nil, List.singleton_append]
    at hfound
  refine eq_of_isInfix_cons ?_ havoided hfound
  rw [lower_eq_lowerBetween]
  exact length_lowerBetween _ _ _ _ _

/-- The same before a mark that its lower-case form does not end with. -/
theorem keepsSigmas_before_mark {keyword : Keyword}
    (h : ∀ mark, keyword.isIn ([] ++ keyword.text.toList ++ [mark]) = true) :
    ∃ mark, IsMark mark ∧ KeepsSigmas [] keyword.text.toList [mark] := by
  obtain ⟨mark, hmark, havoided⟩ := exists_isMark keyword.needle.getLast?
  refine ⟨mark, hmark, lowerBetween_eq_lower_iff.mp (Eq.symm ?_)⟩
  have hfound := contains_iff_isInfix.mp (h mark)
  rw [lower_append_append] at hfound
  simp only [lowerBetween, hmark.lower, lowerFrom, List.append_nil, List.nil_append] at hfound
  refine eq_of_isInfix_concat ?_ havoided hfound
  rw [lower_eq_lowerBetween]
  exact length_lowerBetween _ _ _ _ _

/-- A keyword that is found wherever it stands keeps its sigmas everywhere, since surroundings of
one mark show whether there are any that change a sigma. -/
theorem keepsSigmas_of_isIn {keyword : Keyword}
    (h : ∀ before after, keyword.isIn (before ++ keyword.text.toList ++ after) = true)
    (before after : List Char) : KeepsSigmas before keyword.text.toList after := by
  obtain ⟨first, hfirst, hkeeps⟩ := keepsSigmas_after_mark fun mark => h [mark] []
  obtain ⟨last, hlast, hkeeps'⟩ := keepsSigmas_before_mark fun mark => h [] [mark]
  intro front back hsplit
  by_contra hne
  rcases lowerSigma_marked_of_ne hfirst.cased hlast.cased hne with hchanged | hchanged
  · exact hchanged (by simpa using hkeeps front back hsplit)
  · exact hchanged (by simpa using hkeeps' front back hsplit)

/-- A keyword that stands verbatim in a text is found there if its capital sigmas have the same
forms as in the keyword alone; one without capital sigmas is found whatever stands around it.
A keyword is found wherever it stands exactly if no surroundings change one of its sigmas. -/
theorem isIn_verbatim (keyword : Keyword) (hkeyword : keyword.text ≠ "") :
    (∀ before after, KeepsSigmas before keyword.text.toList after →
      keyword.isIn (before ++ keyword.text.toList ++ after) = true ∧
        1 ≤ keyword.occurrences (before ++ keyword.text.toList ++ after)) ∧
    ('Σ' ∉ keyword.text.toList → ∀ before after,
      keyword.isIn (before ++ keyword.text.toList ++ after) = true ∧
        1 ≤ keyword.occurrences (before ++ keyword.text.toList ++ after)) ∧
    ((∀ before after, keyword.isIn (before ++ keyword.text.toList ++ after) = true ∧
        1 ≤ keyword.occurrences (before ++ keyword.text.toList ++ after)) ↔
      ∀ before after, KeepsSigmas before keyword.text.toList after) := by
  have hfound (before after : List Char) (h : KeepsSigmas before keyword.text.toList after) :
      keyword.isIn (before ++ keyword.text.toList ++ after) = true ∧
        1 ≤ keyword.occurrences (before ++ keyword.text.toList ++ after) := by
    have hisIn := isIn_of_keepsSigmas h
    exact ⟨hisIn, (one_le_occurrences_iff hkeyword _).mpr hisIn⟩
  refine ⟨hfound, fun hnone before after => ?_, fun h before after => ?_, fun h before after => ?_⟩
  · exact hfound before after (keepsSigmas_of_not_mem hnone before after)
  · exact keepsSigmas_of_isIn (fun before after => (h before after).1) before after
  · exact hfound before after (h before after)

/-- A sigma between letters keeps its form, so the keyword is found whatever stands around it. -/
theorem isIn_verbatim_inner_sigma :
    "ΜΕΣΟ" ≠ "" ∧ ∀ before after,
      ({ text := "ΜΕΣΟ" } : Keyword).isIn (before ++ "ΜΕΣΟ".toList ++ after) = true ∧
        1 ≤ ({ text := "ΜΕΣΟ" } : Keyword).occurrences (before ++ "ΜΕΣΟ".toList ++ after) := by
  have hnonempty : "ΜΕΣΟ" ≠ "" := by decide
  refine ⟨hnonempty, (isIn_verbatim { text := "ΜΕΣΟ" } hnonempty).2.2.mpr ?_⟩
  intro before after front back hsplit
  have hplace : front = ['Μ', 'Ε'] ∧ back = ['Ο'] := by
    rcases front with _ | ⟨a, _ | ⟨b, _ | ⟨c, _ | ⟨d, front⟩⟩⟩⟩ <;> simp at hsplit ⊢
    obtain ⟨rfl, rfl, rfl⟩ := hsplit
    exact ⟨⟨rfl, rfl⟩, rfl⟩
  obtain ⟨rfl, rfl⟩ := hplace
  rfl

/-- A keyword that is one capital sigma is missed at the end of a word. -/
theorem verbatim_keyword_missed :
    ¬∀ (keyword : Keyword) (before after : List Char), keyword.text ≠ "" →
      keyword.isIn (before ++ keyword.text.toList ++ after) = true ∧
        1 ≤ keyword.occurrences (before ++ keyword.text.toList ++ after) := by
  intro h
  have hfound := (h { text := "Σ" } ['a'] [] (by decide)).1
  exact absurd hfound (by decide)

end Keyword
end SdkEvidence
