import Mathlib.Data.List.Nodup
import Mathlib.Data.List.Sort
import Mathlib.Data.String.Basic
import SdkEvidence.FileSystem.Walk
import SdkEvidence.Proofs.Bytes.Utf8
import SdkEvidence.Proofs.FileSystem.Nodes

/-!
# What a walk meets

A walk meets the files below its top, each once (`mem_walk`), in the order of the bytes of their
names, directory by directory (`walk_increasing`).
-/
namespace SdkEvidence

namespace Location

theorem precedes_trans {a b c : Location} (hab : precedes a b = true) (hbc : precedes b c = true) :
    precedes a c = true := by
  induction a generalizing b c with
  | nil => rfl
  | cons x s ih =>
    cases b with
    | nil => cases hab
    | cons y t =>
      cases c with
      | nil => cases hbc
      | cons z u =>
        simp only [precedes] at hab hbc ⊢
        by_cases hxy : x = y
        · subst hxy
          by_cases hxz : x = z
          · simp only [hxz, if_true] at hab hbc ⊢
            exact ih hab hbc
          · simpa [hxz] using hbc
        · have hlt : x < y := by simpa [hxy] using hab
          by_cases hyz : y = z
          · subst hyz
            simpa [hxy] using hlt
          · have hlt' : y < z := by simpa [hyz] using hbc
            have hxz := String.lt_trans hlt hlt'
            simp [ne_of_lt hxz, hxz]

theorem precedes_total (a b : Location) : (precedes a b || precedes b a) = true := by
  induction a generalizing b with
  | nil => simp [precedes]
  | cons x s ih =>
    cases b with
    | nil => simp [precedes]
    | cons y t =>
      by_cases hxy : x = y
      · subst hxy
        simpa [precedes] using ih t
      · rcases lt_or_gt_of_ne hxy with hlt | hlt
        · simp [precedes, hxy, hlt]
        · simp [precedes, Ne.symm hxy, hlt]

/-- The bytes of the names of a location. -/
def bytes (loc : Location) : List (List UInt8) :=
  loc.map fun name => (Utf8.encode name).data.toList

/-- Different locations in walk order are in the order of their bytes, name by name. -/
theorem bytes_lt_of_precedes {a b : Location} (h : precedes a b = true) (hne : a ≠ b) :
    bytes a < bytes b := by
  induction a generalizing b with
  | nil =>
    cases b with
    | nil => exact absurd rfl hne
    | cons y t => exact List.nil_lt_cons _ _
  | cons x s ih =>
    cases b with
    | nil => cases h
    | cons y t =>
      refine List.cons_lt_cons_iff.mpr ?_
      by_cases hxy : x = y
      · subst hxy
        exact Or.inr ⟨rfl, ih (by simpa [precedes] using h) (by simpa using hne)⟩
      · exact Or.inl (Utf8.encode_lt (by simpa [precedes, hxy] using h))

end Location

namespace FileSystem

theorem mem_filesBelow {fs : FileSystem} {top : Location} {file : WalkedFile} :
    file ∈ fs.filesBelow top
      ↔ ∃ executable, (top ++ file.way, Node.file file.content executable) ∈ fs.nodes := by
  unfold filesBelow
  rw [List.mem_filterMap]
  constructor
  · rintro ⟨⟨loc, node⟩, hmem, hfile⟩
    dsimp only at hfile
    split at hfile
    next way content executable hbelow =>
      cases hfile
      rw [Location.below?_eq_some] at hbelow
      exact ⟨executable, hbelow ▸ hmem⟩
    next => cases hfile
  · rintro ⟨executable, hmem⟩
    refine ⟨_, hmem, ?_⟩
    dsimp only
    rw [Location.below?_eq_some.mpr rfl]

/-- A walk meets exactly the files below its top. -/
theorem mem_walk {fs : FileSystem} (wf : fs.WellFormed) {top : Location} {file : WalkedFile} :
    file ∈ fs.walk top ↔ fs.contentAt? (top ++ file.way) = some file.content := by
  rw [walk, List.mem_mergeSort, mem_filesBelow, contentAt?_eq_some]
  refine exists_congr fun executable => ?_
  rw [wf.mem_nodes_iff]
  refine and_iff_right_of_imp fun hget hnil => ?_
  rw [hnil, get?_nil] at hget
  cases hget

/-- Files that are listed in walk order are met as they are listed. -/
theorem walkPath_of_sorted {fs : FileSystem} {p : PathText} {loc : Location} {node : Node}
    (hfind : fs.find? p = some (loc, node))
    (hsorted : (fs.filesBelow loc).Pairwise fun a b => Location.precedes a.way b.way = true) :
    fs.walkPath p = fs.filesBelow loc := by
  unfold walkPath
  rw [hfind]
  exact List.mergeSort_of_pairwise hsorted

/-- What is picked from nodes at different locations is picked at different locations. -/
theorem nodup_of_filterMap_nodes {fs : FileSystem} (wf : fs.WellFormed) {α : Type}
    {pick : Location × Node → Option α} {place : α → Location}
    (hplace : ∀ entry a, pick entry = some a → place a = entry.1) :
    ((fs.nodes.filterMap pick).map place).Nodup := by
  refine wf.distinct.sublist ?_
  induction fs.nodes with
  | nil => simp
  | cons entry rest ih =>
    rw [List.filterMap_cons]
    split
    next => exact ih.trans (List.sublist_cons_self _ _)
    next a hpick =>
      rw [List.map_cons, List.map_cons, hplace entry a hpick]
      exact ih.cons_cons _

theorem filesBelow_ways_nodup {fs : FileSystem} (wf : fs.WellFormed) (top : Location) :
    ((fs.filesBelow top).map WalkedFile.way).Nodup := by
  have hnodup : ((fs.filesBelow top).map fun file => top ++ file.way).Nodup := by
    refine nodup_of_filterMap_nodes wf fun ⟨loc, node⟩ file hpick => ?_
    dsimp only at hpick
    split at hpick
    next way content executable hbelow =>
      cases hpick
      exact (Location.below?_eq_some.mp hbelow).symm
    next => cases hpick
  rw [← Function.comp_def (fun way => top ++ way) WalkedFile.way, ← List.map_map] at hnodup
  exact List.Nodup.of_map _ hnodup

/-- A directory has an entry for each node that stands in it. -/
theorem mem_entries {fs : FileSystem} (wf : fs.WellFormed) {top : Location} {name : String}
    {node : Node} : (name, node) ∈ fs.entries top ↔ fs.get? (top ++ [name]) = some node := by
  have hloc : top ++ [name] ≠ [] := by simp
  rw [← and_iff_right (b := fs.get? (top ++ [name]) = some node) hloc, ← wf.mem_nodes_iff]
  unfold entries
  rw [List.mem_filterMap]
  constructor
  · rintro ⟨⟨loc, found⟩, hmem, hpick⟩
    dsimp only at hpick
    split at hpick
    next hbelow =>
      cases hpick
      rwa [← Location.below?_eq_some.mp hbelow]
    next => cases hpick
  · intro hmem
    refine ⟨_, hmem, ?_⟩
    dsimp only
    rw [Location.below?_eq_some.mpr rfl]

theorem entries_nodup {fs : FileSystem} (wf : fs.WellFormed) (top : Location) :
    (fs.entries top).Nodup := by
  refine List.Nodup.of_map (fun entry => top ++ [entry.1]) ?_
  refine nodup_of_filterMap_nodes wf fun ⟨loc, node⟩ found hpick => ?_
  dsimp only at hpick
  split at hpick
  next hbelow =>
    cases hpick
    exact (Location.below?_eq_some.mp hbelow).symm
  next => cases hpick

/-- A walk meets the files in the order of the bytes of their ways. -/
theorem walk_increasing {fs : FileSystem} (wf : fs.WellFormed) (top : Location) :
    (fs.walk top).Pairwise fun a b => a.way.bytes < b.way.bytes := by
  have hsorted : (fs.walk top).Pairwise fun a b => Location.precedes a.way b.way = true :=
    List.pairwise_mergeSort (fun a b c => Location.precedes_trans (a := a.way))
      (fun a b => Location.precedes_total a.way b.way) _
  have hnodup : (fs.walk top).Pairwise fun a b => a.way ≠ b.way := by
    have hperm : (fs.walk top).Perm (fs.filesBelow top) := List.mergeSort_perm _ _
    have hways := (hperm.map WalkedFile.way).nodup_iff.mpr (filesBelow_ways_nodup wf top)
    exact List.pairwise_map.mp hways
  exact (hsorted.and hnodup).imp fun ⟨hle, hne⟩ => Location.bytes_lt_of_precedes hle hne

/-- Files in the order of a walk are listed once each. -/
theorem nodup_of_increasing {files : List WalkedFile}
    (h : files.Pairwise fun a b => a.way.bytes < b.way.bytes) : files.Nodup :=
  h.imp fun hlt heq => by
    rw [heq] at hlt
    exact List.lt_irrefl _ hlt

/-- Files in the order of a walk are listed in one way only. -/
theorem eq_of_increasing {files others : List WalkedFile}
    (hfiles : files.Pairwise fun a b => a.way.bytes < b.way.bytes)
    (hothers : others.Pairwise fun a b => a.way.bytes < b.way.bytes)
    (hmem : ∀ file, file ∈ files ↔ file ∈ others) : files = others := by
  have : Std.Irrefl fun a b : WalkedFile => a.way.bytes < b.way.bytes :=
    ⟨fun a => List.lt_irrefl a.way.bytes⟩
  have : Std.Antisymm fun a b : WalkedFile => a.way.bytes < b.way.bytes :=
    ⟨fun _ _ hab hba => absurd hba (List.lt_asymm hab)⟩
  exact hfiles.eq_of_mem_iff hothers hmem

end FileSystem
end SdkEvidence
