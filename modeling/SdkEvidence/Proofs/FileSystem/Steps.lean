import SdkEvidence.FileSystem.Basic
import SdkEvidence.FileSystem.Path
import SdkEvidence.Proofs.Text.Pieces

/-!
# The steps of a path

Where a path leads in a file system without links is decided by its text alone: every name is a
step down and every `..` a step up. Joining two paths joins their steps (`steps_join`), and the
parent of a path has the same steps but for the last (`parent?_eq_some`).
-/
namespace SdkEvidence

namespace Path

/-- The segments of a path that lead somewhere: names and steps up. -/
def steps (p : PathText) : List String :=
  (segments p).filter fun segment => !isFiller segment

theorem slash_not_mem_of_mem_segments {p : PathText} {s : String} (hs : s ∈ segments p) :
    '/' ∉ s.toList := by
  simp only [segments, List.mem_map] at hs
  obtain ⟨part, hpart, rfl⟩ := hs
  simpa using Text.notMem_of_mem_splitOn hpart

theorem segments_ne_nil (p : PathText) : segments p ≠ [] := by
  simp [segments]

@[simp] theorem segments_empty : segments "" = [""] := rfl

theorem segments_append_slash (p q : PathText) :
    segments (p ++ "/" ++ q) = segments p ++ segments q := by
  have htext : (p ++ "/" ++ q).toList = p.toList ++ '/' :: q.toList := by simp
  rw [segments, htext, List.splitOn_append_cons_self, List.map_append]
  rfl

theorem segments_slash_append (q : PathText) : segments ("/" ++ q) = "" :: segments q := by
  simpa using segments_append_slash "" q

theorem segments_intercalate {l : List String} (hne : l ≠ []) (hl : ∀ s ∈ l, '/' ∉ s.toList) :
    segments ("/".intercalate l) = l := by
  have hparts : ∀ part ∈ l.map String.toList, '/' ∉ part := by
    simpa using hl
  have hslash : "/".toList = ['/'] := rfl
  rw [segments, String.toList_intercalate, hslash,
    List.splitOn_intercalate '/' hparts (by simpa using hne)]
  simp [Function.comp_def]

/-- Only the empty path and absolute paths start with an empty segment. -/
theorem segments_of_relative {p : PathText} (hp : p ≠ "") (hrel : isAbsolute p = false) :
    ∃ s rest, segments p = s :: rest ∧ s ≠ "" := by
  have hchars : p.toList ≠ [] := by simpa using hp
  obtain ⟨c, chars, hcons⟩ := List.exists_cons_of_ne_nil hchars
  have hc : c ≠ '/' := by simpa [isAbsolute, hcons] using hrel
  obtain ⟨head, tail, hsplit⟩ := List.exists_cons_of_ne_nil (List.splitOn_ne_nil '/' chars)
  refine ⟨String.ofList (c :: head), tail.map String.ofList, ?_, by simp⟩
  simp [segments, hcons, List.splitOn_cons_eq_if_modifyHead, hc, hsplit]

theorem eq_slash_append_of_absolute {p : PathText} (habs : isAbsolute p = true) :
    ∃ q, p = "/" ++ q := by
  cases hchars : p.toList with
  | nil => simp [isAbsolute, hchars] at habs
  | cons c chars =>
    have hc : c = '/' := by simpa [isAbsolute, hchars] using habs
    refine ⟨String.ofList chars, String.toList_inj.mp ?_⟩
    simp [hchars, hc]

@[simp] theorem isAbsolute_slash_append (q : PathText) : isAbsolute ("/" ++ q) = true := by
  simp [isAbsolute]

@[simp] theorem isAbsolute_empty : isAbsolute "" = false := rfl

theorem isAbsolute_append {p q : PathText} (hp : p ≠ "") :
    isAbsolute (p ++ q) = isAbsolute p := by
  have hchars : p.toList ≠ [] := by simpa using hp
  obtain ⟨c, chars, hcons⟩ := List.exists_cons_of_ne_nil hchars
  simp [isAbsolute, hcons]

/-- The empty segment before the root leads nowhere. -/
theorem filter_body (p : PathText) :
    ((body p).filter fun segment => !isFiller segment) = steps p := by
  cases habs : isAbsolute p with
  | false => simp [body, steps, habs]
  | true =>
    obtain ⟨q, rfl⟩ := eq_slash_append_of_absolute habs
    simp [body, steps, segments_slash_append, isFiller]

@[simp] theorem steps_empty : steps "" = [] := rfl

theorem steps_append_slash (p q : PathText) : steps (p ++ "/" ++ q) = steps p ++ steps q := by
  simp [steps, segments_append_slash]

theorem eq_append_slash_of_getLast? {p : PathText} (hlast : p.toList.getLast? = some '/') :
    ∃ q, p = q ++ "/" := by
  obtain ⟨chars, hchars⟩ := List.getLast?_eq_some_iff.mp hlast
  exact ⟨String.ofList chars, String.toList_inj.mp (by simp [hchars])⟩

theorem steps_join {p q : PathText} (hq : isAbsolute q = false) :
    steps (join p q) = steps p ++ steps q := by
  unfold join
  rw [if_neg (by simp [hq])]
  split
  next h =>
    rcases h with rfl | hlast
    · simp
    · obtain ⟨front, rfl⟩ := eq_append_slash_of_getLast? hlast
      have hfront : steps (front ++ "/") = steps front := by
        simpa using steps_append_slash front ""
      rw [steps_append_slash, hfront]
  next => exact steps_append_slash p q

theorem isAbsolute_join {p q : PathText} (hq : isAbsolute q = false) :
    isAbsolute (join p q) = isAbsolute p := by
  unfold join
  rw [if_neg (by simp [hq])]
  by_cases hp : p = ""
  · simpa [hp] using hq
  · split
    · exact isAbsolute_append hp
    · rw [String.append_assoc]
      exact isAbsolute_append hp

theorem join_ne_empty {p q : PathText} (hq : q ≠ "") : join p q ≠ "" := by
  unfold join
  split
  · exact hq
  · split <;> simp [hq]

theorem dropFiller_suffix (relative : Bool) (l : List String) : dropFiller relative l <:+ l := by
  induction l with
  | nil => simp [dropFiller]
  | cons segment rest ih =>
    unfold dropFiller
    split
    next hdot => simp_all
    next =>
      split
      · exact ih.trans (List.suffix_cons _ _)
      · exact List.suffix_refl _

theorem filter_dropFiller (relative : Bool) (l : List String) :
    ((dropFiller relative l).filter fun segment => !isFiller segment)
      = l.filter fun segment => !isFiller segment := by
  induction l with
  | nil => simp [dropFiller]
  | cons segment rest ih =>
    unfold dropFiller
    split
    next hdot => simp_all
    next =>
      split
      next hfiller => simpa [hfiller] using ih
      next => rfl

/-- What is left starts with a segment that leads somewhere, or is the one dot of a relative
path. -/
theorem dropFiller_head {relative : Bool} {l rest : List String} {segment : String}
    (h : dropFiller relative l = segment :: rest) :
    isFiller segment = false ∨ (isFiller segment = true ∧ rest = []) := by
  induction l with
  | nil => simp [dropFiller] at h
  | cons first more ih =>
    unfold dropFiller at h
    split at h
    next hdot =>
      simp only [Bool.and_eq_true, beq_iff_eq] at hdot
      simp only [List.cons.injEq] at h
      exact Or.inr ⟨by simp [← h.1, hdot.2, isFiller], h.2.symm⟩
    next =>
      split at h
      · exact ih h
      next hfiller =>
        simp only [List.cons.injEq] at h
        exact Or.inl (by simpa [h.1] using hfiller)

/-- The text that `parent?` puts together again: the kept segments of a path. -/
theorem steps_intercalate_kept {p : PathText} {kept : List String} (hkept : kept <+: body p) :
    steps ("/".intercalate kept) = kept.filter fun segment => !isFiller segment := by
  by_cases hne : kept = []
  · simp [hne]
  · have hslash : ∀ s ∈ kept, '/' ∉ s.toList := by
      intro s hs
      apply slash_not_mem_of_mem_segments (p := p)
      have hbody : s ∈ body p := hkept.subset hs
      unfold body at hbody
      split at hbody
      · exact List.mem_of_mem_drop hbody
      · exact hbody
    rw [steps, segments_intercalate hne hslash]

theorem isAbsolute_intercalate_kept {p : PathText} {kept : List String}
    (hrel : isAbsolute p = false) (hkept : kept <+: body p) (hfirst : p ≠ "") :
    isAbsolute ("/".intercalate kept) = false := by
  obtain ⟨s, rest, hsegments, hs⟩ := segments_of_relative hfirst hrel
  simp only [body, hrel, hsegments] at hkept
  cases kept with
  | nil => simp
  | cons first more =>
    have hfirst : first = s := (List.cons_prefix_cons.mp (by simpa using hkept)).1
    subst hfirst
    obtain ⟨c, chars, hchars⟩ := List.exists_cons_of_ne_nil (l := first.toList) (by simpa using hs)
    have hc : c ≠ '/' := by
      have hslash := slash_not_mem_of_mem_segments (p := p) (s := first) (by simp [hsegments])
      rw [hchars] at hslash
      simp only [List.mem_cons, not_or] at hslash
      exact Ne.symm hslash.1
    cases more <;> simp [isAbsolute, hchars, hc]

/-- A parent starts where the path starts and takes all its steps but the last. -/
theorem parent?_eq_some {p q : PathText} (h : parent? p = some q) :
    isAbsolute q = isAbsolute p ∧ steps q = (steps p).dropLast := by
  unfold parent? at h
  dsimp only at h
  split at h
  next => cases h
  next last rest hdrop =>
    have hne : p ≠ "" := by
      rintro rfl
      simp [body, dropFiller, isFiller] at hdrop
    let kept := (dropFiller (!isAbsolute p) rest).reverse
    have hsuffix : last :: rest <:+ (body p).reverse := hdrop ▸ dropFiller_suffix _ _
    have hprefix : kept <+: body p := by
      have hrest : rest <:+ (body p).reverse := (List.suffix_cons last rest).trans hsuffix
      simpa [kept] using List.reverse_prefix.mpr ((dropFiller_suffix _ _).trans hrest)
    have hkept : steps ("/".intercalate kept)
        = (rest.filter fun segment => !isFiller segment).reverse := by
      rw [steps_intercalate_kept hprefix, List.filter_reverse, filter_dropFiller]
    have hsteps : steps p = ((last :: rest).filter fun segment => !isFiller segment).reverse := by
      rw [← hdrop, filter_dropFiller, List.filter_reverse, List.reverse_reverse, filter_body]
    have hdropLast : (steps p).dropLast
        = (rest.filter fun segment => !isFiller segment).reverse := by
      rcases dropFiller_head hdrop with hlast | ⟨hlast, rfl⟩
      · simp [hsteps, hlast]
      · simp [hsteps, hlast]
    rw [hdropLast, ← hkept]
    cases habs : isAbsolute p with
    | false =>
      simp only [habs, Bool.not_false, if_true, Option.some.injEq] at h
      subst h
      exact ⟨by simpa [kept, habs] using isAbsolute_intercalate_kept habs hprefix hne,
        by simp [kept, habs]⟩
    | true =>
      simp only [habs, Bool.not_true, Option.some.injEq] at h
      subst h
      refine ⟨by simp, ?_⟩
      have hslash := steps_append_slash "" ("/".intercalate kept)
      simpa [kept, habs] using hslash

/-- A path that leads somewhere has a parent. -/
theorem exists_parent? {p : PathText} (hsteps : steps p ≠ []) : ∃ q, parent? p = some q := by
  unfold parent?
  dsimp only
  split
  next hdrop =>
    have hnone : (steps p).reverse = [] := by
      rw [← filter_body, ← List.filter_reverse, ← filter_dropFiller (!isAbsolute p), hdrop]
      rfl
    exact absurd (List.reverse_eq_nil_iff.mp hnone) hsteps
  next => exact ⟨_, rfl⟩

end Path

namespace Location

/-- One step from a location: to what stands above it, or down to a name. -/
def step (place : Location) (segment : String) : Location :=
  if segment = ".." then place.dropLast else place ++ [segment]

/-- Where steps lead from a location. -/
def reach (place : Location) (steps : List String) : Location :=
  steps.foldl step place

/-- The locations that steps pass through, both ends included. -/
def trail (place : Location) : List String → List Location
  | [] => [place]
  | segment :: rest => place :: trail (step place segment) rest

@[simp] theorem reach_nil (place : Location) : reach place [] = place := rfl

@[simp] theorem reach_cons (place : Location) (segment : String) (rest : List String) :
    reach place (segment :: rest) = reach (step place segment) rest := rfl

theorem reach_append (place : Location) (front back : List String) :
    reach place (front ++ back) = reach (reach place front) back := by
  simp [reach]

theorem start_mem_trail (place : Location) (steps : List String) : place ∈ trail place steps := by
  cases steps <;> simp [trail]

theorem reach_mem_trail (place : Location) (steps : List String) :
    reach place steps ∈ trail place steps := by
  induction steps generalizing place with
  | nil => simp [trail]
  | cons segment rest ih => simp [trail, ih]

theorem mem_trail_append {place loc : Location} {front back : List String} :
    loc ∈ trail place (front ++ back)
      ↔ loc ∈ trail place front ∨ loc ∈ trail (reach place front) back := by
  induction front generalizing place with
  | nil =>
    constructor
    · exact Or.inr
    · rintro (h | h)
      · simp only [trail, List.mem_singleton] at h
        exact h ▸ start_mem_trail _ _
      · exact h
  | cons segment rest ih =>
    simp only [List.cons_append, trail, List.mem_cons, ih, reach_cons]
    exact or_assoc.symm

/-- A trail ends where the steps lead; the rest of it is the trail of all steps but the last. -/
theorem mem_trail_iff_dropLast {place loc : Location} {steps : List String} :
    loc ∈ trail place steps ↔ loc ∈ trail place steps.dropLast ∨ loc = reach place steps := by
  rcases List.eq_nil_or_concat steps with rfl | ⟨front, last, rfl⟩
  · simp [trail]
  · rw [List.concat_eq_append, List.dropLast_concat, mem_trail_append, reach_append]
    constructor
    · rintro (h | h)
      · exact Or.inl h
      · simp only [trail, List.mem_cons, List.not_mem_nil, or_false] at h
        rcases h with rfl | rfl
        · exact Or.inl (reach_mem_trail _ _)
        · exact Or.inr rfl
    · rintro (h | h)
      · exact Or.inl h
      · exact Or.inr (by simp [h, trail])

theorem step_subset (place : Location) (segment : String) :
    step place segment ⊆ place ++ [segment] := by
  unfold step
  split
  · exact List.Subset.trans (List.dropLast_subset place) (List.subset_append_left _ _)
  · exact List.Subset.refl _

/-- The names that a trail passes are of its start or of its steps. -/
theorem mem_of_mem_trail {place loc : Location} {steps : List String} {name : String}
    (hloc : loc ∈ trail place steps) (hname : name ∈ loc) : name ∈ place ++ steps := by
  induction steps generalizing place with
  | nil =>
    simp only [trail, List.mem_singleton] at hloc
    simpa [← hloc] using hname
  | cons segment rest ih =>
    simp only [trail, List.mem_cons] at hloc
    rcases hloc with rfl | hloc
    · exact List.mem_append_left _ hname
    · rw [List.append_cons]
      rcases List.mem_append.mp (ih hloc) with hstep | hrest
      · exact List.mem_append_left _ (step_subset _ _ hstep)
      · exact List.mem_append_right _ hrest

end Location
end SdkEvidence
