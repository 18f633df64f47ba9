import SdkEvidence.Proofs.FileSystem.Copies
import SdkEvidence.Tree.Index

/-!
# Files by area

No file is claimed by the decompiled and by the raw tree at once (`ofDecompiled_of_ofRaw`), so a
tree that is both gives each area the files that the two trees would give it (`filesIn_build`).
-/
namespace SdkEvidence

open FileSystem

namespace TreeArea

/-- A file that a raw tree claims lies in one of three directories. -/
theorem ofRaw_ne_other {way : Location} (h : ofRaw way ≠ .other) :
    ∃ top name more, way = top :: name :: more ∧
      (top = libraryDirectory ∨ top = assetDirectory ∨ top = metadataDirectory) := by
  unfold ofRaw at h
  split at h
  next top name more =>
    refine ⟨top, name, more, rfl, ?_⟩
    by_contra hnone
    simp only [not_or] at hnone
    simp [hnone] at h
  next => exact absurd rfl h

/-- What a raw tree claims, a decompiled tree leaves. -/
theorem ofDecompiled_of_ofRaw {way : Location} (h : ofRaw way ≠ .other) (rawHasMetadata : Bool) :
    ofDecompiled rawHasMetadata way = .other := by
  obtain ⟨top, name, more, rfl, htop⟩ := ofRaw_ne_other h
  have hresource : top ≠ resourceDirectory := by
    rcases htop with rfl | rfl | rfl <;> decide
  have hcode : isCodeRoot top = false := by
    rcases htop with rfl | rfl | rfl <;> decide
  have hkept : top ≠ keptDirectory := by
    rcases htop with rfl | rfl | rfl <;> decide
  simp [ofDecompiled, hresource, hcode, hkept]

/-- In a tree that is both, an area has what either classification gives it. -/
theorem ofBoth_eq_iff {area : TreeArea} (harea : area ≠ .other) (rawHasMetadata : Bool)
    (way : Location) :
    ofBoth rawHasMetadata way = area
      ↔ ofDecompiled rawHasMetadata way = area ∨ ofRaw way = area := by
  by_cases hraw : ofRaw way = .other
  · unfold ofBoth
    split
    next hdecompiled => simp [hdecompiled, hraw, Ne.symm harea]
    next => simp [hraw, Ne.symm harea]
  · simp [ofBoth, ofDecompiled_of_ofRaw hraw, Ne.symm harea]

/-- Whether a raw or a decompiled tree gives an area the file at a way. -/
def Claims (area : TreeArea) (way : Location) : Prop :=
  ofRaw way = area ∨ ∃ rawHasMetadata, ofDecompiled rawHasMetadata way = area

theorem Claims.ne_nil {area : TreeArea} {way : Location} (h : area.Claims way)
    (harea : area ≠ .other) : way ≠ [] := by
  rintro rfl
  rcases h with hraw | ⟨rawHasMetadata, hdecompiled⟩
  · exact harea hraw.symm
  · exact harea hdecompiled.symm

theorem ofRaw_mem (way : Location) :
    ofRaw way ∈ [nativeLibrary, asset, libraryMetadata, other] := by
  unfold ofRaw
  repeat' split
  all_goals simp

/-- The directory of an area in a raw tree. -/
def rawDirectory? : TreeArea → Option String
  | .nativeLibrary => some libraryDirectory
  | .asset => some assetDirectory
  | .libraryMetadata => some metadataDirectory
  | _ => none

theorem singleton_prefix_cons {directory top : String} {below : Location} :
    [directory] <+: top :: below ↔ top = directory := by
  simp [List.cons_prefix_cons, eq_comm]

/-- A raw tree gives an area the files below the directory of the area. -/
theorem ofRaw_eq_iff {area : TreeArea} {directory : String}
    (harea : area.rawDirectory? = some directory) (way : Location) :
    ofRaw way = area ↔ [directory] <+: way ∧ way ≠ [directory] := by
  have hassets : assetDirectory ≠ libraryDirectory := by decide
  have hmetadata : metadataDirectory ≠ libraryDirectory ∧ metadataDirectory ≠ assetDirectory := by
    decide
  rcases way with _ | ⟨top, _ | ⟨name, more⟩⟩
  · cases area <;> simp [ofRaw, rawDirectory?] at harea ⊢
  · cases area <;> simp [ofRaw, rawDirectory?, eq_comm] at harea ⊢
  · rw [singleton_prefix_cons, and_iff_left (by simp), ofRaw]
    cases area <;> simp only [rawDirectory?, Option.some_inj, reduceCtorEq] at harea
    all_goals
      subst harea
      split
      next htop => simp [htop, hassets.symm, hmetadata.1.symm]
      next hlibrary =>
        split
        next htop => simp [htop, hassets, hmetadata.2.symm]
        next hasset =>
          split
          next htop => simp [htop, hmetadata]
          next hother => simp [hlibrary, hasset, hother]

theorem ofRaw_ne {area : TreeArea} (harea : area ≠ .other) (hplace : area.rawDirectory? = none)
    (way : Location) : ofRaw way ≠ area := by
  intro hclaims
  have hmem := ofRaw_mem way
  rw [hclaims] at hmem
  cases area <;> simp [rawDirectory?] at harea hplace hmem

theorem ofDecompiled_mem (rawHasMetadata : Bool) (way : Location) :
    ofDecompiled rawHasMetadata way ∈ [manifest, resourceXml, resource, code, other] ∨
      (rawHasMetadata = false ∧ ofDecompiled rawHasMetadata way = libraryMetadata) := by
  unfold ofDecompiled
  repeat' split
  all_goals simp_all

/-- What has a place in a raw tree is nothing of a decompiled one, except for metadata that the raw
tree lacks. -/
theorem ofDecompiled_ne {area : TreeArea} {directory : String} {rawHasMetadata : Bool}
    (hplace : area.rawDirectory? = some directory)
    (hleft : area ≠ .libraryMetadata ∨ rawHasMetadata = true) (way : Location) :
    ofDecompiled rawHasMetadata way ≠ area := by
  intro hclaims
  have hmem := ofDecompiled_mem rawHasMetadata way
  rw [hclaims] at hmem
  cases area <;> simp_all [rawDirectory?]

/-- Each area belongs to one tree: only metadata comes from either, and then the decompiled tree has
it only where the raw one has none. -/
theorem ofRaw_or_ofDecompiled {area : TreeArea} (harea : area ≠ .other) {rawHasMetadata : Bool}
    {files : List WalkedFile}
    (hnone : rawHasMetadata = false → ∀ file ∈ files, ofRaw file.way ≠ .libraryMetadata) :
    (∀ file ∈ files, ofRaw file.way ≠ area) ∨
      ∀ file ∈ files, ofDecompiled rawHasMetadata file.way ≠ area := by
  cases hplace : area.rawDirectory? with
  | none => exact Or.inl fun file _ => ofRaw_ne harea hplace file.way
  | some directory =>
    by_cases hleft : area ≠ .libraryMetadata ∨ rawHasMetadata = true
    · exact Or.inr fun file _ => ofDecompiled_ne hplace hleft file.way
    · obtain ⟨harea, hmissing⟩ := not_or.mp hleft
      rw [not_not.mp harea]
      exact Or.inl (hnone (by simpa using hmissing))

end TreeArea

namespace PackageIndex

/-- A file below the top of its tree is indexed by its way, whatever path leads to the tree. -/
theorem indexed_congr {root root' : PathText} {area area' : Location → TreeArea}
    {file : WalkedFile} (hway : file.way ≠ []) (harea : area file.way = area' file.way) :
    indexed root area file = indexed root' area' file := by
  have hlast : file.way.getLast? = some (file.way.getLast hway) :=
    List.getLast?_eq_some_getLast hway
  simp only [indexed, hlast, Option.getD_some, harea]

/-- Files below a top are indexed alike by classifications that agree on the area. -/
theorem indexed_filter_congr {files : List WalkedFile} {root root' : PathText}
    {classify classify' : Location → TreeArea} {area : TreeArea}
    (hways : ∀ file ∈ files, file.way ≠ [])
    (hiff : ∀ file ∈ files, classify file.way = area ↔ classify' file.way = area) :
    (files.filter fun file => classify file.way == area).map (indexed root classify)
      = (files.filter fun file => classify' file.way == area).map (indexed root' classify') := by
  have hfilter : (files.filter fun file => classify file.way == area)
      = files.filter fun file => classify' file.way == area := by
    refine List.filter_congr fun file hfile => ?_
    rw [Bool.eq_iff_iff]
    simpa using hiff file hfile
  rw [hfilter]
  refine List.map_congr_left fun file hfile => ?_
  obtain ⟨hmem, hclaims⟩ := List.mem_filter.mp hfile
  have hclaims : classify' file.way = area := by simpa using hclaims
  exact indexed_congr (hways file hmem) (((hiff file hmem).mpr hclaims).trans hclaims.symm)

theorem filter_treeFiles (fs : FileSystem) (root : PathText) (classify : Location → TreeArea)
    (area : TreeArea) :
    (treeFiles fs root classify).filter (fun file => file.area == area)
      = ((fs.walkPath root).filter fun file => classify file.way == area).map
          (indexed root classify) := by
  rw [treeFiles, List.filter_map]
  rfl

theorem filter_eq_nil {files : List WalkedFile} {classify : Location → TreeArea} {area : TreeArea}
    (hnever : ∀ file ∈ files, classify file.way ≠ area) :
    (files.filter fun file => classify file.way == area) = [] := by
  rw [List.filter_eq_nil_iff]
  exact fun file hfile => by simpa using hnever file hfile

variable {fs : FileSystem} {decompiled raw : PathText}

/-- Files below a directory are at a way from it. -/
theorem way_ne_nil (wf : fs.WellFormed) {p : PathText} (hdir : fs.isDirectory p = true)
    {file : WalkedFile} (hfile : file ∈ fs.walkPath p) : file.way ≠ [] := by
  have hfind := isDirectory_eq_true.mp hdir
  rw [walkPath, hfind, mem_walk wf] at hfile
  rintro hnil
  have hget := (find?_directory_trail hfind).2 _ (locate_mem_trail fs p)
  rw [hnil, List.append_nil, contentAt?_of_directory hget] at hfile
  cases hfile

/-- Where a raw tree has no metadata directory, it has no metadata. -/
theorem ofRaw_ne_libraryMetadata (wf : fs.WellFormed) (hdir : fs.isDirectory raw = true)
    (hnone : fs.isDirectory (Path.join raw TreeArea.metadataDirectory) = false)
    {file : WalkedFile} (hfile : file ∈ fs.walkPath raw) :
    TreeArea.ofRaw file.way ≠ .libraryMetadata := by
  intro hclaims
  obtain ⟨⟨more, hway⟩, hne⟩ := (TreeArea.ofRaw_eq_iff rfl file.way).mp hclaims
  have hmore : more ≠ [] := by
    rintro rfl
    exact hne (by simpa using hway.symm)
  have hfind := isDirectory_eq_true.mp hdir
  rw [walkPath, hfind, mem_walk wf, contentAt?_eq_some, ← hway, ← List.append_assoc] at hfile
  obtain ⟨executable, hget⟩ := hfile
  have hthere := wf.directory_of_below hmore (Option.isSome_of_eq_some hget)
  rw [← isDirectory_join_name hfind (by decide), hnone] at hthere
  cases hthere

/-- Each area has the files that the decompiled and the raw tree give it, also where one tree is
both. -/
theorem filesIn_build (wf : fs.WellFormed) (hdecompiled : fs.isDirectory decompiled = true)
    (hraw : fs.isDirectory raw = true)
    (hsame : Path.same decompiled raw = true → fs.walkPath raw = fs.walkPath decompiled)
    {area : TreeArea} (harea : area ≠ .other) :
    (build fs decompiled raw).filesIn area
      = ((treeFiles fs decompiled (TreeArea.ofDecompiled
            (fs.isDirectory (Path.join raw TreeArea.metadataDirectory))))
          ++ treeFiles fs raw TreeArea.ofRaw).filter fun file => file.area == area := by
  unfold filesIn build
  dsimp only
  split
  next hone =>
    generalize hhas : fs.isDirectory (Path.join raw TreeArea.metadataDirectory) = rawHasMetadata
    rw [List.filter_append, filter_treeFiles, filter_treeFiles, filter_treeFiles, hsame hone]
    have hways (file : WalkedFile) (hfile : file ∈ fs.walkPath decompiled) :=
      way_ne_nil wf hdecompiled hfile
    have hboth := TreeArea.ofBoth_eq_iff harea rawHasMetadata
    rcases TreeArea.ofRaw_or_ofDecompiled harea fun hnone file hfile =>
      ofRaw_ne_libraryMetadata wf hraw (hhas.trans hnone) ((hsame hone).symm ▸ hfile)
      with hnever | hnever
    · rw [filter_eq_nil hnever, List.map_nil, List.append_nil]
      exact indexed_filter_congr hways fun file hfile => by simp [hboth, hnever file hfile]
    · rw [filter_eq_nil hnever, List.map_nil, List.nil_append]
      exact indexed_filter_congr hways fun file hfile => by simp [hboth, hnever file hfile]
  next => rfl

end PackageIndex
end SdkEvidence
