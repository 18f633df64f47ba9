import Mathlib.Algebra.Ring.Nat
import Mathlib.Data.List.Enum
import SdkEvidence.Proofs.Tree.Places

/-!
# Where files stand in an index

The positions that an index keeps for its areas are those of its files, each for one area
(`partitioned`). The index of two trees lists the files of the decompiled tree and then those of the
raw tree, each once and in the order of the bytes of their ways (`listsTree_treeFiles`), and tells
the files of an area apart by their ways (`relatives_nodup_filesIn`).
-/
namespace SdkEvidence

open FileSystem

namespace PackageIndex

/-! ## The positions of an area -/

theorem foldl_pushPosition (entries : List (IndexedFile × Nat)) (lists : TreeArea → List Nat)
    (area : TreeArea) :
    entries.foldl (fun lists (file, n) => pushPosition lists file.area n) lists area
      = lists area ++ (entries.filter fun entry => entry.1.area == area).map Prod.snd := by
  induction entries generalizing lists with
  | nil => simp
  | cons entry rest ih =>
    obtain ⟨file, n⟩ := entry
    rw [List.foldl_cons, ih, List.filter_cons]
    by_cases harea : area = file.area
    · simp [pushPosition, harea]
    · simp [pushPosition, harea, Ne.symm harea]

theorem positions_eq (index : PackageIndex) (area : TreeArea) :
    index.positions area
      = (index.files.zipIdx.filter fun entry => entry.1.area == area).map Prod.snd :=
  foldl_pushPosition _ _ area

theorem mem_positions {index : PackageIndex} {area : TreeArea} {n : Nat} :
    n ∈ index.positions area ↔ ∃ file, index.files[n]? = some file ∧ file.area = area := by
  simp [positions_eq, List.mem_zipIdx_iff_getElem?]

theorem positions_increasing (index : PackageIndex) (area : TreeArea) :
    (index.positions area).Pairwise (· < ·) := by
  have hall : (index.files.zipIdx.map Prod.snd).Pairwise (· < ·) := by
    rw [List.zipIdx_map_snd]
    exact List.pairwise_lt_range'
  rw [positions_eq]
  exact hall.sublist (List.filter_sublist.map _)

/-- No position is out of range, and the files there are the files of the area. -/
theorem map_getElem?_positions (index : PackageIndex) (area : TreeArea) :
    (index.positions area).map (index.files[·]?) = (index.filesIn area).map some := by
  have hfiles : index.filesIn area
      = (index.files.zipIdx.filter fun entry => entry.1.area == area).map Prod.fst := by
    rw [filesIn, ← List.zipIdx_map_fst 0 index.files, List.filter_map, List.zipIdx_map_fst]
    rfl
  rw [hfiles, positions_eq, List.map_map, List.map_map]
  refine List.map_congr_left fun entry hentry => ?_
  exact List.mem_zipIdx_iff_getElem?.mp (List.mem_filter.mp hentry).1

/-- The positions that an index keeps are those of its files, in order, each for one area. -/
structure Partitioned (index : PackageIndex) : Prop where
  covers : ∀ n, n < index.files.length ↔ ∃ area, n ∈ index.positions area
  apart : ∀ area another n, n ∈ index.positions area → n ∈ index.positions another → area = another
  increasing : ∀ area, (index.positions area).Pairwise (· < ·)
  inRange : ∀ area, (index.positions area).map (index.files[·]?) = (index.filesIn area).map some

theorem partitioned (index : PackageIndex) : index.Partitioned where
  covers n := by
    constructor
    · intro hn
      exact ⟨_, mem_positions.mpr ⟨_, List.getElem?_eq_getElem hn, rfl⟩⟩
    · rintro ⟨area, hmem⟩
      obtain ⟨file, hfile, -⟩ := mem_positions.mp hmem
      exact (List.getElem?_eq_some_iff.mp hfile).1
  apart area another n harea hanother := by
    obtain ⟨file, hfile, rfl⟩ := mem_positions.mp harea
    obtain ⟨found, hfound, rfl⟩ := mem_positions.mp hanother
    rw [hfile] at hfound
    rw [Option.some.inj hfound]
  increasing := positions_increasing index
  inRange := map_getElem?_positions index

/-! ## The files of a tree -/

/-- The files are the regular files of the tree that a path leads to, each once, in the order of the
bytes of the names on their ways. -/
structure ListsTree (fs : FileSystem) (root : PathText) (files : List IndexedFile) : Prop where
  regular : ∀ way content, (∃ file ∈ files, file.way = way ∧ file.content = content)
    ↔ ∃ top node, fs.find? root = some (top, node) ∧ fs.contentAt? (top ++ way) = some content
  increasing : files.Pairwise fun a b => a.way.bytes < b.way.bytes

variable {fs : FileSystem} {root decompiled raw : PathText} {classify : Location → TreeArea}

theorem mem_walkPath (wf : fs.WellFormed) {file : WalkedFile} :
    file ∈ fs.walkPath root ↔ ∃ top node, fs.find? root = some (top, node) ∧
      fs.contentAt? (top ++ file.way) = some file.content := by
  unfold walkPath
  split
  next top node hfind => simp [hfind, mem_walk wf]
  next hfind => simp [hfind]

theorem walkPath_increasing (wf : fs.WellFormed) (root : PathText) :
    (fs.walkPath root).Pairwise fun a b => a.way.bytes < b.way.bytes := by
  unfold walkPath
  split
  next top node _ => exact walk_increasing wf top
  next => exact List.Pairwise.nil

theorem listsTree_treeFiles (wf : fs.WellFormed) :
    ListsTree fs root (treeFiles fs root classify) where
  regular way content := by
    simp only [treeFiles, List.mem_map, exists_exists_and_eq_and]
    refine Iff.trans ?_ (@mem_walkPath fs root wf { way, content })
    constructor
    · rintro ⟨file, hfile, rfl, rfl⟩
      exact hfile
    · exact fun hfile => ⟨_, hfile, rfl, rfl⟩
  increasing := List.pairwise_map.mpr (walkPath_increasing wf root)

theorem ListsTree.ways_nodup {files : List IndexedFile} (h : ListsTree fs root files) :
    (files.map IndexedFile.way).Nodup := by
  refine List.pairwise_map.mpr (h.increasing.imp fun hlt heq => ?_)
  rw [heq] at hlt
  exact List.lt_irrefl _ hlt

/-! ## The files of two trees -/

theorem segments_of_mem_filesIn (wf : fs.WellFormed) {area : TreeArea} (harea : area ≠ .other)
    {file : IndexedFile} (hfile : file ∈ (build fs decompiled raw).filesIn area) :
    Path.segments file.relative = file.way := by
  have hway := (claims_of_mem_filesIn harea hfile).ne_nil harea
  obtain ⟨root, classify, hlisted, -⟩ := exists_treeFiles_of_mem (List.mem_filter.mp hfile).1
  obtain ⟨met, hmet, rfl⟩ := List.mem_map.mp hlisted
  obtain ⟨top, node, -, hcontent⟩ := (mem_walkPath wf).mp hmet
  exact segments_relative wf hway hcontent

/-- No two files of an area have the same way, since no way is claimed by both trees. -/
theorem ways_nodup_filesIn (wf : fs.WellFormed) {area : TreeArea} (harea : area ≠ .other) :
    (((build fs decompiled raw).filesIn area).map IndexedFile.way).Nodup := by
  have hone (root : PathText) (classify : Location → TreeArea) :
      (((treeFiles fs root classify).filter fun file => file.area == area).map
        IndexedFile.way).Nodup :=
    (listsTree_treeFiles wf).ways_nodup.sublist (List.filter_sublist.map _)
  unfold filesIn build
  dsimp only
  split
  next => exact hone decompiled _
  next =>
    rw [List.filter_append, List.map_append]
    refine List.nodup_append.mpr ⟨hone decompiled _, hone raw _, fun way hway other hother => ?_⟩
    rintro rfl
    obtain ⟨file, hfile, rfl⟩ := List.mem_map.mp hway
    obtain ⟨found, hfound, heq⟩ := List.mem_map.mp hother
    obtain ⟨hfile, hclaimed⟩ := List.mem_filter.mp hfile
    obtain ⟨hfound, hshipped⟩ := List.mem_filter.mp hfound
    rw [beq_iff_eq, area_of_mem_treeFiles hfile] at hclaimed
    rw [beq_iff_eq, area_of_mem_treeFiles hfound, heq] at hshipped
    rw [TreeArea.ofDecompiled_of_ofRaw (hshipped.symm ▸ harea)] at hclaimed
    exact harea hclaimed.symm

theorem relatives_nodup_filesIn (wf : fs.WellFormed) {area : TreeArea} (harea : area ≠ .other) :
    (((build fs decompiled raw).filesIn area).map IndexedFile.relative).Nodup := by
  have hsegments : (((build fs decompiled raw).filesIn area).map IndexedFile.relative).map
      Path.segments = ((build fs decompiled raw).filesIn area).map IndexedFile.way := by
    rw [List.map_map]
    exact List.map_congr_left fun file hfile => segments_of_mem_filesIn wf harea hfile
  exact List.Nodup.of_map Path.segments (hsegments ▸ ways_nodup_filesIn wf harea)

theorem total_eq_sum (numbers : List Nat) : total numbers = numbers.sum := by
  induction numbers with
  | nil => rfl
  | cons n rest ih => rw [total, ih, List.sum_cons]

/-- A decompiled tree where the bytes of the ways and those of their texts are in different orders,
and a raw tree with a manifest of its own. -/
def Listed.files : FileSystem :=
  { nodes :=
      [(["d"], .directory), (["d", "AndroidManifest.xml"], .file "<manifest/>".toUTF8 false),
       (["d", "smali"], .directory), (["d", "smali", "a-b.smali"], .file "1".toUTF8 false),
       (["d", "smali", "a"], .directory), (["d", "smali", "a", "b.smali"], .file "22".toUTF8 false),
       (["r"], .directory), (["r", "AndroidManifest.xml"], .file "333".toUTF8 false),
       (["r", "lib"], .directory), (["r", "lib", "x.so"], .file "x".toUTF8 false)]
    current := []
    temporary := "/" }

end PackageIndex
end SdkEvidence
