import SdkEvidence.Proofs.Bytes.LetterCase
import SdkEvidence.Proofs.FileSystem.Contents
import SdkEvidence.Tree.Index

/-!
# The index of trees with other contents

Contents decide nothing about areas: with other contents the same areas are there, and each has the
same files (`filesIn_withContents`).
-/
namespace SdkEvidence.PackageIndex

open FileSystem

variable (fs : FileSystem) (change : Location → ByteArray → ByteArray)
  (decompiled raw : PathText)

theorem findCodeRoots_withContents :
    findCodeRoots (fs.withContents change) decompiled = findCodeRoots fs decompiled := by
  obtain ⟨top, hentries⟩ := entriesAt_withContents fs change decompiled
  unfold findCodeRoots
  rw [hentries, List.filterMap_map]
  simp only [Function.comp_def, Node.withContent_eq_directory]

theorem findMetadata_withContents :
    findMetadata (fs.withContents change) decompiled raw = findMetadata fs decompiled raw := by
  simp only [findMetadata, isDirectory_withContents]

theorem hasArea_withContents (area : TreeArea) :
    (build (fs.withContents change) decompiled raw).hasArea area
      = (build fs decompiled raw).hasArea area := by
  have hpresent : isPresent (fs.withContents change) decompiled raw
      = isPresent fs decompiled raw := by
    funext area
    cases area <;>
      simp only [isPresent, isFile_withContents, isDirectory_withContents,
        findCodeRoots_withContents, findMetadata_withContents]
  simp only [hasArea, build, hpresent]

/-- A relation between a file and the same file with another content. -/
structure SameFile (related : ByteArray → ByteArray → Prop) (file changed : IndexedFile) :
    Prop where
  same : changed = { file with content := changed.content }
  content : related file.content changed.content

variable {change} {related : ByteArray → ByteArray → Prop}
  (hchange : ∀ loc content, related content (change loc content))

include hchange

theorem treeFiles_withContents (root : PathText) (area : Location → TreeArea) :
    List.Forall₂ (SameFile related) (treeFiles fs root area)
      (treeFiles (fs.withContents change) root area) := by
  obtain ⟨top, hwalk⟩ := walkPath_withContents fs change root
  unfold treeFiles
  rw [hwalk, List.map_map, List.forall₂_map_left_iff, List.forall₂_map_right_iff]
  exact List.forall₂_same.mpr fun file _ => ⟨rfl, hchange _ _⟩

theorem files_withContents :
    List.Forall₂ (SameFile related) (build fs decompiled raw).files
      (build (fs.withContents change) decompiled raw).files := by
  unfold build
  simp only [isDirectory_withContents]
  split
  next => exact treeFiles_withContents fs hchange _ _
  next =>
    exact List.rel_append (treeFiles_withContents fs hchange _ _)
      (treeFiles_withContents fs hchange _ _)

theorem filesIn_withContents (area : TreeArea) :
    List.Forall₂ (SameFile related) ((build fs decompiled raw).filesIn area)
      ((build (fs.withContents change) decompiled raw).filesIn area) := by
  refine List.rel_filter (fun file changed h => ?_)
    (files_withContents fs decompiled raw hchange)
  rw [h.same]

end SdkEvidence.PackageIndex
