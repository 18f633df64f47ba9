import Mathlib.Data.List.Basic
import SdkEvidence.Text.Lower

/-!
# Lower case in context

Only a capital sigma looks at its surroundings. So a piece of a text is lower-cased as it would be
on its own, unless a sigma in it changes its form (`lowerBetween_eq_iff`). Whether any surroundings
change a sigma shows with a single cased character at one end of the piece
(`lowerSigma_marked_of_ne`).
-/
namespace SdkEvidence.Text

theorem lowerAt_sigma (before after : List Char) :
    lowerAt before 'Σ' after = [lowerSigma before after] := rfl

theorem lowerAt_congr {c : Char} (hc : c ≠ 'Σ') (before after before' after' : List Char) :
    lowerAt before c after = lowerAt before' c after' := by
  simp [lowerAt, hc]

theorem length_lowerAt (before after before' after' : List Char) (c : Char) :
    (lowerAt before c after).length = (lowerAt before' c after').length := by
  by_cases hc : c = 'Σ'
  · rw [hc, lowerAt_sigma, lowerAt_sigma, List.length_singleton, List.length_singleton]
  · rw [lowerAt_congr hc before after before' after']

theorem lowerAt_ne_nil (before after : List Char) (c : Char) : lowerAt before c after ≠ [] := by
  unfold lowerAt
  repeat' split
  all_goals simp

/-- The lower-case form of a text where it stands between `before`, read backwards, and `after`. -/
def lowerBetween (before : List Char) : List Char → List Char → List Char
  | [], _ => []
  | c :: rest, after => lowerAt before c (rest ++ after) ++ lowerBetween (c :: before) rest after

theorem lowerFrom_append (before text after : List Char) :
    lowerFrom before (text ++ after)
      = lowerBetween before text after ++ lowerFrom (text.reverse ++ before) after := by
  induction text generalizing before with
  | nil => rfl
  | cons c rest ih => simp [lowerFrom, lowerBetween, ih]

theorem lower_eq_lowerBetween (text : List Char) : lower text = lowerBetween [] text [] := by
  have happend := lowerFrom_append [] text []
  rwa [List.append_nil, ← lower_eq_lowerFrom, lowerFrom, List.append_nil] at happend

/-- A text in lower case is a run of pieces, each in the form that it takes between the others. -/
theorem lower_append_append (before text after : List Char) :
    lower (before ++ text ++ after)
      = lowerBetween [] before (text ++ after) ++ lowerBetween before.reverse text after
          ++ lowerFrom (text.reverse ++ before.reverse) after := by
  rw [lower_eq_lowerFrom, List.append_assoc, lowerFrom_append, lowerFrom_append, List.append_nil,
    List.append_assoc]

theorem length_lowerBetween (before after before' after' text : List Char) :
    (lowerBetween before text after).length = (lowerBetween before' text after').length := by
  induction text generalizing before before' with
  | nil => rfl
  | cons c rest ih =>
    rw [lowerBetween, lowerBetween, List.length_append, List.length_append,
      length_lowerAt before (rest ++ after) before' (rest ++ after') c, ih (c :: before)
        (c :: before')]

/-- Between two surroundings a text has one form exactly when each of its capital sigmas has. -/
theorem lowerBetween_eq_iff {before after before' after' text : List Char} :
    lowerBetween before text after = lowerBetween before' text after' ↔
      ∀ front back, text = front ++ 'Σ' :: back →
        lowerSigma (front.reverse ++ before) (back ++ after)
          = lowerSigma (front.reverse ++ before') (back ++ after') := by
  induction text generalizing before before' with
  | nil => simp [lowerBetween]
  | cons c rest ih =>
    have hfirst : lowerAt before c (rest ++ after) = lowerAt before' c (rest ++ after') ↔
        (c = 'Σ' → lowerSigma before (rest ++ after) = lowerSigma before' (rest ++ after')) := by
      by_cases hc : c = 'Σ'
      · simp [hc, lowerAt_sigma]
      · simp [hc, lowerAt_congr hc before (rest ++ after) before' (rest ++ after')]
    constructor
    · intro heq front back hsplit
      obtain ⟨hhead, htail⟩ := List.append_inj heq (length_lowerAt _ _ _ _ c)
      rcases List.cons_eq_append_iff.mp hsplit with ⟨rfl, hrest⟩ | ⟨front, rfl, hrest⟩
      · obtain ⟨hc, rfl⟩ := List.cons.inj hrest
        exact hfirst.mp hhead hc.symm
      · simpa using ih.mp htail front back hrest
    · intro hsigmas
      refine congrArg₂ (· ++ ·) (hfirst.mpr fun hc => ?_) (ih.mpr fun front back hrest => ?_)
      · exact hsigmas [] rest (by rw [hc, List.nil_append])
      · simpa using hsigmas (c :: front) back (by rw [hrest, List.cons_append])

/-- Whether each capital sigma of a text has the form between `before` and `after` that it has when
the text stands alone. -/
def KeepsSigmas (before text after : List Char) : Prop :=
  ∀ front back, text = front ++ 'Σ' :: back →
    lowerSigma (front.reverse ++ before.reverse) (back ++ after) = lowerSigma front.reverse back

theorem keepsSigmas_of_not_mem {text : List Char} (h : 'Σ' ∉ text) (before after : List Char) :
    KeepsSigmas before text after := by
  rintro front back rfl
  simp at h

theorem lowerBetween_eq_lower_iff {before text after : List Char} :
    lowerBetween before.reverse text after = lower text ↔ KeepsSigmas before text after := by
  rw [lower_eq_lowerBetween, lowerBetween_eq_iff]
  simp [KeepsSigmas]

/-- The case of the nearest character that is not passed over, if there is one. -/
def nearestCase? : List Char → Option Bool
  | [] => none
  | c :: rest => if isCaseIgnorable c then nearestCase? rest else some (isCased c)

/-- Farther characters count only where all nearer ones are passed over. -/
theorem nearestIsCased_append (near far : List Char) :
    nearestIsCased (near ++ far) = (nearestCase? near).getD (nearestIsCased far) := by
  induction near with
  | nil => rfl
  | cons c rest ih =>
    rw [List.cons_append, nearestIsCased, nearestCase?]
    split
    next => exact ih
    next => rfl

theorem nearestIsCased_eq (near : List Char) :
    nearestIsCased near = (nearestCase? near).getD false := by
  simpa [nearestIsCased] using nearestIsCased_append near []

/-- Nothing before a character that is not passed over and has no case counts. -/
theorem nearestIsCased_append_break {c : Char} (hstops : isCaseIgnorable c = false)
    (hcase : isCased c = false) (near far : List Char) :
    nearestIsCased (near ++ c :: far) = nearestIsCased near := by
  rw [nearestIsCased_append, nearestIsCased_eq near, nearestIsCased, hstops, hcase]
  rfl

theorem lowerFrom_append_break {c : Char} (hstops : isCaseIgnorable c = false)
    (hcase : isCased c = false) (near far text : List Char) :
    lowerFrom (near ++ c :: far) text = lowerFrom near text := by
  induction text generalizing near with
  | nil => rfl
  | cons first rest ih =>
    have hfirst : lowerAt (near ++ c :: far) first rest = lowerAt near first rest := by
      simp only [lowerAt, lowerSigma, nearestIsCased_append_break hstops hcase]
    rw [lowerFrom, lowerFrom, hfirst, ← List.cons_append, ih]

/-- What follows such a character is lower-cased as on its own. -/
theorem lower_suffix_append_break {c : Char} (hstops : isCaseIgnorable c = false)
    (hcase : isCased c = false) (front text : List Char) :
    lower text <:+ lower (front ++ c :: text) := by
  have hsplit : front ++ c :: text = [] ++ (front ++ [c]) ++ text := by simp
  rw [hsplit, lower_append_append, lower_eq_lowerFrom text]
  have hrest := lowerFrom_append_break hstops hcase [] front.reverse text
  simp only [List.nil_append, List.reverse_append, List.reverse_cons, List.reverse_nil,
    List.singleton_append, List.append_nil] at hrest ⊢
  rw [hrest]
  exact List.suffix_append _ _

theorem lower_eq_nil_iff {text : List Char} : lower text = [] ↔ text = [] := by
  constructor
  · intro hnil
    cases text with
    | nil => rfl
    | cons c rest =>
      rw [lower_eq_lowerBetween, lowerBetween, List.append_eq_nil_iff] at hnil
      exact absurd hnil.1 (lowerAt_ne_nil _ _ c)
  · rintro rfl
    rfl

/-- A sigma that some surroundings change is changed by one cased character before or after. -/
theorem lowerSigma_marked_of_ne {front back before after : List Char} {first last : Char}
    (hfirst : nearestIsCased [first] = true) (hlast : nearestIsCased [last] = true)
    (hne : lowerSigma (front ++ before) (back ++ after) ≠ lowerSigma front back) :
    lowerSigma (front ++ [first]) back ≠ lowerSigma front back ∨
      lowerSigma front (back ++ [last]) ≠ lowerSigma front back := by
  simp only [lowerSigma, nearestIsCased_append, nearestIsCased_eq front, nearestIsCased_eq back,
    hfirst, hlast] at hne ⊢
  cases hfront : nearestCase? front with
  | none =>
    cases hback : nearestCase? back with
    | none => simp
    | some later => cases later <;> simp [hfront, hback] at hne ⊢
  | some earlier =>
    cases hback : nearestCase? back with
    | none => cases earlier <;> simp [hfront, hback] at hne ⊢
    | some later => simp [hfront, hback] at hne

end SdkEvidence.Text
