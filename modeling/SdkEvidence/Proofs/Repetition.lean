import Mathlib.Data.List.Sort
import Mathlib.Data.String.Basic
import SdkEvidence.Dictionary

/-!
# Items that are repeated

Taking out the items that repeat the one before leaves a part of the list (`eraseRepsBy_sublist`),
and all of it where no two are alike (`eraseRepsBy_of_pairwise`). From a sorted list it takes just
the repetitions, so the distinct texts of a list are its texts, each once and in order
(`sortedDistinct_increasing`, `mem_sortedDistinct`). Where no key is repeated, each is looked up
with its value from either end (`lookup_eq_some_iff_mem`, `lookup_reverse_eq_some_iff_mem`).
-/
namespace SdkEvidence

section Keys

variable {κ α : Type} [BEq κ] [LawfulBEq κ] {entries : List (κ × α)} {key : κ} {value : α}

theorem lookup_eq_some_iff_mem (h : (entries.map Prod.fst).Nodup) :
    entries.lookup key = some value ↔ (key, value) ∈ entries := by
  rw [List.lookup_eq_some_iff]
  constructor
  · rintro ⟨front, back, rfl, -⟩
    exact List.mem_append_right _ List.mem_cons_self
  · intro hmem
    obtain ⟨front, back, rfl⟩ := List.append_of_mem hmem
    refine ⟨front, back, rfl, fun other hother => ?_⟩
    rw [List.map_append, List.map_cons] at h
    rw [bne_iff_ne]
    rintro rfl
    exact (List.nodup_append.mp h).2.2 _ (List.mem_map_of_mem hother) _ List.mem_cons_self rfl

theorem lookup_reverse_eq_some_iff_mem (h : (entries.map Prod.fst).Nodup) :
    entries.reverse.lookup key = some value ↔ (key, value) ∈ entries := by
  have hreverse : (entries.reverse.map Prod.fst).Nodup := by
    rw [List.map_reverse]
    exact List.nodup_reverse.mpr h
  rw [lookup_eq_some_iff_mem hreverse, List.mem_reverse]

end Keys

section Runs

variable {α : Type} (same : α → α → Bool)

theorem eraseRepsBy_loop (a : α) (rest done : List α) :
    List.eraseRepsBy.loop same a rest done
      = done.reverse ++ List.eraseRepsBy.loop same a rest [] := by
  induction rest generalizing a done with
  | nil => simp [List.eraseRepsBy.loop]
  | cons b rest ih =>
    simp only [List.eraseRepsBy.loop]
    split
    next => exact ih a done
    next =>
      rw [ih b (a :: done), ih b [a]]
      simp

theorem eraseRepsBy_cons_cons (a b : α) (rest : List α) :
    (a :: b :: rest).eraseRepsBy same
      = if same a b then (a :: rest).eraseRepsBy same else a :: (b :: rest).eraseRepsBy same := by
  simp only [List.eraseRepsBy, List.eraseRepsBy.loop]
  cases same a b with
  | true => rfl
  | false => exact eraseRepsBy_loop same b rest [a]

theorem eraseRepsBy_sublist (items : List α) : (items.eraseRepsBy same).Sublist items := by
  cases items with
  | nil => exact List.Sublist.slnil
  | cons a rest =>
    induction rest generalizing a with
    | nil => exact List.Sublist.refl _
    | cons b rest ih =>
      rw [eraseRepsBy_cons_cons]
      split
      next => exact (ih a).trans ((List.sublist_cons_self b rest).cons_cons a)
      next => exact (ih b).cons_cons a

theorem eraseRepsBy_of_pairwise {items : List α}
    (h : items.Pairwise fun a b => same a b = false) : items.eraseRepsBy same = items := by
  cases items with
  | nil => rfl
  | cons a rest =>
    induction rest generalizing a with
    | nil => rfl
    | cons b rest ih =>
      have hfirst : same a b = false := (List.pairwise_cons.mp h).1 b List.mem_cons_self
      rw [eraseRepsBy_cons_cons, hfirst, ih b h.of_cons]
      rfl

end Runs

theorem eraseReps_increasing {α : Type} [LinearOrder α] [BEq α] [LawfulBEq α] {items : List α}
    (h : items.Pairwise (· ≤ ·)) : items.eraseReps.Pairwise (· < ·) := by
  unfold List.eraseReps
  cases items with
  | nil => exact List.Pairwise.nil
  | cons a rest =>
    induction rest generalizing a with
    | nil => exact List.pairwise_singleton _ a
    | cons b rest ih =>
      obtain ⟨hfirst, hrest⟩ := List.pairwise_cons.mp h
      rw [eraseRepsBy_cons_cons]
      split
      next => exact ih a (h.sublist ((List.sublist_cons_self b rest).cons_cons a))
      next hne =>
        refine List.pairwise_cons.mpr ⟨fun c hc => ?_, ih b hrest⟩
        have hab : a < b := lt_of_le_of_ne (hfirst b List.mem_cons_self) (by simpa using hne)
        rcases List.mem_cons.mp ((eraseRepsBy_sublist _ _).subset hc) with rfl | hc
        · exact hab
        · exact lt_of_lt_of_le hab ((List.pairwise_cons.mp hrest).1 c hc)

theorem mem_eraseReps {α : Type} [BEq α] [LawfulBEq α] {items : List α} {item : α} :
    item ∈ items.eraseReps ↔ item ∈ items := by
  unfold List.eraseReps
  refine ⟨fun hmem => (eraseRepsBy_sublist _ items).subset hmem, fun hmem => ?_⟩
  cases items with
  | nil => exact hmem
  | cons a rest =>
    induction rest generalizing a with
    | nil => exact hmem
    | cons b rest ih =>
      rw [eraseRepsBy_cons_cons]
      split
      next heq =>
        refine ih a ?_
        rw [beq_iff_eq] at heq
        simpa [heq] using hmem
      next =>
        rcases List.mem_cons.mp hmem with rfl | hmem
        · exact List.mem_cons_self
        · exact List.mem_cons_of_mem a (ih b hmem)

theorem sortedDistinct_increasing (texts : List String) :
    (sortedDistinct texts).Pairwise (· < ·) :=
  eraseReps_increasing (List.pairwise_mergeSort' (· ≤ ·) texts)

theorem mem_sortedDistinct {texts : List String} {text : String} :
    text ∈ sortedDistinct texts ↔ text ∈ texts :=
  mem_eraseReps.trans List.mem_mergeSort

end SdkEvidence
