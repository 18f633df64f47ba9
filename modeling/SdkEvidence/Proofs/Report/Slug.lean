import Mathlib.Data.Bool.AllAny
import Mathlib.Data.List.Chain
import Mathlib.Data.List.DropRight
import SdkEvidence.Proofs.Text.Lower
import SdkEvidence.Report.Render

/-!
# Slugs

A slug is not empty, has small letters, digits and hyphens only, and starts and ends with none of
its hyphens (`isSlug_ofText`). The one pass over a text puts a hyphen for each maximal run of other
characters but one at the end of the text, where hyphens are dropped anyway (`collapse_runs`,
`slugOf_ofText`). A slug is its own slug (`ofText_of_isSlug`).
-/
namespace SdkEvidence.Slug

/-- A small ASCII letter, a digit or a hyphen. -/
def IsSlugChar (c : Char) : Prop :=
  ('a' ≤ c ∧ c ≤ 'z') ∨ ('0' ≤ c ∧ c ≤ '9') ∨ c = '-'

instance : DecidablePred IsSlugChar := fun _ => inferInstanceAs (Decidable (_ ∨ _))

theorem isKept_iff {c : Char} : isKept c = true ↔ IsSlugChar c := by
  simp [isKept, IsSlugChar, or_assoc]

/-- A text that may stand in a file name. -/
structure IsSlug (slug : String) : Prop where
  nonempty : slug ≠ ""
  chars : ∀ c ∈ slug.toList, IsSlugChar c
  starts : slug.toList.head? ≠ some '-'
  ends : slug.toList.getLast? ≠ some '-'

/-! ## Runs of characters -/

/-- Characters that may all stand in slugs, or of which none may. -/
def Alike (run : List Char) : Prop :=
  (∀ c ∈ run, IsSlugChar c) ∨ ∀ c ∈ run, ¬IsSlugChar c

/-- The maximal runs of characters that are alike. -/
structure IsRuns (text : List Char) (runs : List (List Char)) : Prop where
  joined : runs.flatten = text
  alike : ∀ run ∈ runs, run ≠ [] ∧ Alike run
  maximal : runs.IsChain fun run next => ¬Alike (run ++ next)

/-- What stands for a run: one hyphen, unless its characters may stand in slugs. -/
def hyphened (run : List Char) : List Char :=
  if run.all fun c => decide (IsSlugChar c) then run else ['-']

/-- A text without the hyphens at its ends. -/
structure IsTrimmed (text trimmed : List Char) : Prop where
  around : ∃ before after, text = before ++ trimmed ++ after ∧ (∀ c ∈ before, c = '-') ∧
    ∀ c ∈ after, c = '-'
  starts : trimmed.head? ≠ some '-'
  ends : trimmed.getLast? ≠ some '-'

/-- The slug of a text in lower case. -/
def SlugOf (text : List Char) (slug : String) : Prop :=
  ∃ runs trimmed, IsRuns text runs ∧ IsTrimmed (runs.flatMap hyphened) trimmed ∧
    slug = if trimmed = [] then "unknown" else String.ofList trimmed

theorem hyphened_of_kept {run : List Char} (h : ∀ c ∈ run, IsSlugChar c) : hyphened run = run :=
  if_pos (List.all_iff_forall_prop.mpr h)

theorem hyphened_of_other {run : List Char} (hne : run ≠ []) (h : ∀ c ∈ run, ¬IsSlugChar c) :
    hyphened run = ['-'] := by
  obtain ⟨c, hc⟩ := List.exists_mem_of_ne_nil run hne
  exact if_neg fun hall => h c hc (List.all_iff_forall_prop.mp hall c hc)

theorem exists_isRuns (text : List Char) : ∃ runs, IsRuns text runs := by
  induction text with
  | nil => exact ⟨[], rfl, by simp, List.IsChain.nil⟩
  | cons c rest ih =>
    obtain ⟨runs, hjoined, halike, hmaximal⟩ := ih
    have hone : Alike [c] := by
      by_cases hc : IsSlugChar c
      · exact Or.inl (by simpa using hc)
      · exact Or.inr (by simpa using hc)
    cases runs with
    | nil => exact ⟨[[c]], by simpa using hjoined, by simpa using hone, List.isChain_singleton _⟩
    | cons run more =>
      obtain ⟨hrun, hmore⟩ := List.forall_mem_cons.mp halike
      -- the character belongs to the first run, or makes a run of its own before it
      by_cases hjoins : Alike ([c] ++ run)
      · refine ⟨([c] ++ run) :: more, by simpa using hjoined,
          List.forall_mem_cons.mpr ⟨⟨by simp, hjoins⟩, hmore⟩, ?_⟩
        cases more with
        | nil => exact List.isChain_singleton _
        | cons next others =>
          rw [List.isChain_cons_cons] at hmaximal ⊢
          refine ⟨fun h => hmaximal.1 ?_, hmaximal.2⟩
          exact h.imp (fun h c hc => h c (List.mem_cons_of_mem _ hc))
            fun h c hc => h c (List.mem_cons_of_mem _ hc)
      · exact ⟨[c] :: run :: more, by simpa using hjoined,
          List.forall_mem_cons.mpr ⟨⟨by simp, hone⟩, halike⟩,
          List.isChain_cons_cons.mpr ⟨hjoins, hmaximal⟩⟩

/-! ## One pass over the runs -/

theorem collapse_kept_append (gap : Bool) {run : List Char} (hne : run ≠ [])
    (hrun : ∀ c ∈ run, IsSlugChar c) (rest : List Char) :
    collapse gap (run ++ rest) = (if gap then ['-'] else []) ++ run ++ collapse false rest := by
  have hlater {run : List Char} (hrun : ∀ c ∈ run, IsSlugChar c) :
      collapse false (run ++ rest) = run ++ collapse false rest := by
    induction run with
    | nil => rfl
    | cons c run ih =>
      obtain ⟨hc, hrun⟩ := List.forall_mem_cons.mp hrun
      rw [List.cons_append, collapse, if_pos (isKept_iff.mpr hc), ih hrun]
      rfl
  obtain ⟨c, run, rfl⟩ := List.exists_cons_of_ne_nil hne
  obtain ⟨hc, hrun⟩ := List.forall_mem_cons.mp hrun
  rw [List.cons_append, collapse, if_pos (isKept_iff.mpr hc), hlater hrun]
  cases gap <;> simp

theorem collapse_other_append (gap : Bool) {run : List Char} (hne : run ≠ [])
    (hrun : ∀ c ∈ run, ¬IsSlugChar c) (rest : List Char) :
    collapse gap (run ++ rest) = collapse true rest := by
  induction run generalizing gap with
  | nil => exact absurd rfl hne
  | cons c run ih =>
    obtain ⟨hc, hrun⟩ := List.forall_mem_cons.mp hrun
    rw [List.cons_append, collapse, if_neg (isKept_iff.not.mpr hc)]
    cases run with
    | nil => rfl
    | cons next more => exact ih true (List.cons_ne_nil next more) hrun

/-- The pass puts a hyphen for each run of other characters when it comes to the run after it, so it
leaves only the hyphen for one at the end. -/
theorem collapse_runs (gap : Bool) {runs : List (List Char)}
    (halike : ∀ run ∈ runs, run ≠ [] ∧ Alike run)
    (hmaximal : runs.IsChain fun run next => ¬Alike (run ++ next))
    (hgap : gap = true → ∀ run ∈ runs.head?, ∀ c ∈ run, IsSlugChar c) :
    ∃ after, (∀ c ∈ after, c = '-') ∧
      (if gap then ['-'] else []) ++ runs.flatMap hyphened
        = collapse gap runs.flatten ++ after := by
  induction runs generalizing gap with
  | nil => exact ⟨if gap then ['-'] else [], by cases gap <;> simp, by simp [collapse]⟩
  | cons run rest ih =>
    obtain ⟨⟨hne, hrun⟩, hrest⟩ := List.forall_mem_cons.mp halike
    have hchain := hmaximal.of_cons
    rcases hrun with hkept | hother
    · obtain ⟨after, hafter, heq⟩ := ih false hrest hchain (by simp)
      refine ⟨after, hafter, ?_⟩
      rw [List.flatten_cons, collapse_kept_append gap hne hkept, List.flatMap_cons,
        hyphened_of_kept hkept, List.append_assoc _ (collapse false _), ← heq]
      simp
    · -- no gap is open here, or this run would follow another one that is no word
      have hno : gap = false := by
        rw [← Bool.not_eq_true]
        intro hgap'
        obtain ⟨c, hc⟩ := List.exists_mem_of_ne_nil run hne
        exact hother c hc (hgap hgap' run (by simp) c hc)
      have hnext : ∀ next ∈ rest.head?, ∀ c ∈ next, IsSlugChar c := by
        intro next hnext
        cases rest with
        | nil => cases hnext
        | cons first more =>
          obtain rfl : first = next := by simpa using hnext
          rcases (hrest first List.mem_cons_self).2 with hkept | hother'
          · exact hkept
          · refine absurd (Or.inr ?_) (List.isChain_cons_cons.mp hmaximal).1
            exact List.forall_mem_append.mpr ⟨hother, hother'⟩
      obtain ⟨after, hafter, heq⟩ := ih true hrest hchain fun _ => hnext
      refine ⟨after, hafter, ?_⟩
      rw [List.flatten_cons, collapse_other_append gap hne hother, ← heq, List.flatMap_cons,
        hyphened_of_other hne hother, hno]
      simp

theorem mem_collapse {gap : Bool} {text : List Char} {c : Char} (h : c ∈ collapse gap text) :
    IsSlugChar c := by
  induction text generalizing gap with
  | nil => cases h
  | cons first rest ih =>
    rw [collapse] at h
    split at h
    next hfirst =>
      rcases List.mem_append.mp h with h | h
      · cases gap
        · rw [List.mem_singleton.mp h]
          exact isKept_iff.mp hfirst
        · rcases List.mem_pair.mp h with rfl | rfl
          · exact Or.inr (Or.inr rfl)
          · exact isKept_iff.mp hfirst
      · exact ih h
    next => exact ih h

/-! ## Hyphens at the ends -/

theorem isTrimmed_trimHyphens (text : List Char) : IsTrimmed text (trimHyphens text) := by
  have htrim : trimHyphens text = (text.dropWhile (· == '-')).rdropWhile (· == '-') := rfl
  have hprefix := List.rdropWhile_prefix (p := (· == '-')) (text.dropWhile (· == '-'))
  rw [htrim]
  refine ⟨⟨text.takeWhile (· == '-'), (text.dropWhile (· == '-')).rtakeWhile (· == '-'), ?_,
    fun c hc => ?_, fun c hc => ?_⟩, fun hhead => ?_, fun hlast => ?_⟩
  · rw [List.append_assoc, List.rdropWhile_append_rtakeWhile, List.takeWhile_append_dropWhile]
  · simpa using List.mem_takeWhile_imp (p := (· == '-')) hc
  · simpa using List.mem_rtakeWhile_imp (p := (· == '-')) hc
  · obtain ⟨more, hmore⟩ := hprefix
    have hfirst := List.head?_dropWhile_not (· == '-') text
    rw [← hmore, List.head?_append, hhead] at hfirst
    simp at hfirst
  · have hne : (text.dropWhile (· == '-')).rdropWhile (· == '-') ≠ [] := by
      rintro hnil
      simp [hnil] at hlast
    have hlast' := List.rdropWhile_last_not _ _ hne
    rw [List.getLast?_eq_some_getLast hne, Option.some_inj] at hlast
    exact hlast' (by simp [hlast])

/-! ## The slug of a text -/

theorem slugOf_ofText (text : String) : SlugOf (Text.lower text.toList) (ofText text) := by
  obtain ⟨runs, hruns⟩ := exists_isRuns (Text.lower text.toList)
  obtain ⟨after, hafter, heq⟩ := collapse_runs false hruns.alike hruns.maximal (by simp)
  rw [hruns.joined] at heq
  obtain ⟨⟨front, back, haround, hfront, hback⟩, hstarts, hends⟩ :=
    isTrimmed_trimHyphens (collapse false (Text.lower text.toList))
  refine ⟨runs, _, hruns, ⟨⟨front, back ++ after, ?_, hfront, ?_⟩, hstarts, hends⟩, ?_⟩
  · conv at heq => rhs; rw [haround]
    simpa using heq
  · exact List.forall_mem_append.mpr ⟨hback, hafter⟩
  · simp [ofText]

theorem isSlug_ofText (text : String) : IsSlug (ofText text) := by
  have hunknown : IsSlug "unknown" := by
    exact ⟨by decide, List.all_iff_forall_prop.mp (by decide), by decide, by decide⟩
  obtain ⟨⟨front, back, haround, -, -⟩, hstarts, hends⟩ :=
    isTrimmed_trimHyphens (collapse false (Text.lower text.toList))
  unfold ofText
  dsimp only
  split
  next => exact hunknown
  next hne =>
    refine ⟨by simpa using hne, fun c hc => ?_, by simpa using hstarts, by simpa using hends⟩
    rw [String.toList_ofList] at hc
    have hmem : c ∈ collapse false (Text.lower text.toList) := by
      rw [haround]
      simp [hc]
    exact mem_collapse hmem

/-! ## Slugs of slugs -/

theorem IsSlugChar.toNat {c : Char} (h : IsSlugChar c) :
    (97 ≤ c.toNat ∧ c.toNat ≤ 122) ∨ (48 ≤ c.toNat ∧ c.toNat ≤ 57) ∨ c.toNat = 45 := by
  rcases h with h | h | rfl
  · exact Or.inl h
  · exact Or.inr (Or.inl h)
  · exact Or.inr (Or.inr rfl)

theorem lowerAt_of_isSlugChar (before after : List Char) {c : Char} (h : IsSlugChar c) :
    Text.lowerAt before c after = [c] := by
  have hrange := h.toNat
  have hsigma : c ≠ 'Σ' := by
    rintro rfl
    exact absurd h (by decide)
  have hdotted : c ≠ 'İ' := by
    rintro rfl
    exact absurd h (by decide)
  -- small letters are past the row of the capital letters, and the next row is past them
  have hmap : Text.mapCase c.toNat Text.lowerRows = c.toNat := by
    unfold Text.lowerRows Text.mapCase
    split
    next => rfl
    next =>
      rw [if_neg (by simp only [Bool.and_eq_true, decide_eq_true_eq]; omega), Text.mapCase,
        if_pos (by omega)]
  rw [Text.lowerAt, if_neg hsigma, if_neg hdotted, hmap, Char.ofNat_toNat]

theorem lower_of_isSlugChar {text : List Char} (h : ∀ c ∈ text, IsSlugChar c) :
    Text.lower text = text := by
  rw [Text.lower_eq_lowerFrom]
  generalize [] = before
  induction text generalizing before with
  | nil => rfl
  | cons c rest ih =>
    obtain ⟨hc, hrest⟩ := List.forall_mem_cons.mp h
    rw [Text.lowerFrom, lowerAt_of_isSlugChar before rest hc, ih hrest]
    rfl

theorem trimHyphens_eq_self {text : List Char} (hstarts : text.head? ≠ some '-')
    (hends : text.getLast? ≠ some '-') : trimHyphens text = text := by
  have hfront : text.dropWhile (· == '-') = text := by
    cases text with
    | nil => rfl
    | cons c rest => exact List.dropWhile_cons_of_neg (by simpa using hstarts)
  have hback : text.rdropWhile (· == '-') = text := by
    rw [List.rdropWhile_eq_self_iff]
    intro hne
    rw [List.getLast?_eq_some_getLast hne] at hends
    simpa using hends
  calc trimHyphens text = (text.dropWhile (· == '-')).rdropWhile (· == '-') := rfl
    _ = text := by rw [hfront, hback]

/-- A slug is its own slug. -/
theorem ofText_of_isSlug {slug : String} (h : IsSlug slug) : ofText slug = slug := by
  have hne : slug.toList ≠ [] := by simpa using h.nonempty
  have hcollapse : collapse false slug.toList = slug.toList := by
    have hkept := collapse_kept_append false hne h.chars []
    simpa [collapse] using hkept
  rw [ofText, lower_of_isSlugChar h.chars, hcollapse, trimHyphens_eq_self h.starts h.ends]
  simp [hne]

end SdkEvidence.Slug
