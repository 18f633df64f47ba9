import SdkEvidence.Proofs.FileSystem.Names
import SdkEvidence.Proofs.FileSystem.Walk
import SdkEvidence.Proofs.Tree.Areas

/-!
# The places of areas

The files of an area are the files at one place of a tree (`shipped_perm` and the like), and the
area is there if that place is (`isPresent_shipped` and the like). Only the metadata have two
places, of which the second counts where the first is missing (`libraryMetadata_perm`).
-/
namespace SdkEvidence

namespace FileSystem

/-- The files below a way from a top, with their ways from the top. -/
def filesUnder (fs : FileSystem) (top way : Location) : List WalkedFile :=
  (fs.filesBelow top).filter fun file => decide (way <+: file.way ∧ file.way ≠ way)

theorem walk_perm (fs : FileSystem) (top : Location) : (fs.walk top).Perm (fs.filesBelow top) :=
  List.mergeSort_perm _ _

variable {fs : FileSystem}

/-- The files below a way are those whose ways go on from it. -/
theorem mem_filesUnder (wf : fs.WellFormed) {top way : Location} {file : WalkedFile} :
    file ∈ fs.filesUnder top way
      ↔ ∃ name more, file.way = way ++ name :: more ∧
          fs.contentAt? (top ++ file.way) = some file.content := by
  rw [filesUnder, List.mem_filter, ← (walk_perm fs top).mem_iff, mem_walk wf, decide_eq_true_eq]
  constructor
  · rintro ⟨hcontent, ⟨more, hmore⟩, hne⟩
    cases more with
    | nil => exact absurd (by simpa using hmore.symm) hne
    | cons name more => exact ⟨name, more, hmore.symm, hcontent⟩
  · rintro ⟨name, more, hway, hcontent⟩
    exact ⟨hcontent, ⟨_, hway.symm⟩, by simp [hway]⟩

/-- What stands below a way stands below a directory. -/
theorem filesUnder_eq_nil (wf : fs.WellFormed) {top way : Location}
    (hnone : fs.get? (top ++ way) ≠ some .directory) : fs.filesUnder top way = [] := by
  rw [List.eq_nil_iff_forall_not_mem]
  intro file hfile
  obtain ⟨name, more, hway, hcontent⟩ := (mem_filesUnder wf).mp hfile
  obtain ⟨executable, hget⟩ := contentAt?_eq_some.mp hcontent
  rw [hway, ← List.append_assoc] at hget
  exact hnone (wf.directory_of_below (List.cons_ne_nil name more) (Option.isSome_of_eq_some hget))

/-- The way to a file is read off its text, since no name holds a slash. -/
theorem segments_relative (wf : fs.WellFormed) {top : Location} {file : WalkedFile}
    (hway : file.way ≠ []) (hcontent : fs.contentAt? (top ++ file.way) = some file.content) :
    Path.segments file.relative = file.way := by
  obtain ⟨executable, hget⟩ := contentAt?_eq_some.mp hcontent
  refine Path.segments_intercalate hway fun name hname => ?_
  exact (wf.isName_of_get? hget name (List.mem_append_right _ hname)).no_slash

/-- Files below a top are told apart by their ways as texts. -/
theorem relatives_nodup_of_ways (wf : fs.WellFormed) (top : Location) {files : List WalkedFile}
    (hways : (files.map WalkedFile.way).Nodup)
    (hstored : ∀ file ∈ files, file.way ≠ [] ∧
      fs.contentAt? (top ++ file.way) = some file.content) :
    (files.map WalkedFile.relative).Nodup := by
  have hmap : (files.map WalkedFile.relative).map Path.segments = files.map WalkedFile.way := by
    rw [List.map_map]
    refine List.map_congr_left fun file hfile => ?_
    exact segments_relative wf (hstored file hfile).1 (hstored file hfile).2
  exact List.Nodup.of_map Path.segments (hmap ▸ hways)

theorem relatives_nodup (wf : fs.WellFormed) (top way : Location) :
    ((fs.filesUnder top way).map WalkedFile.relative).Nodup := by
  refine relatives_nodup_of_ways wf top ?_ fun file hfile => ?_
  · exact (filesBelow_ways_nodup wf top).sublist (List.filter_sublist.map _)
  · obtain ⟨name, more, hway, hcontent⟩ := (mem_filesUnder wf).mp hfile
    exact ⟨by simp [hway], hcontent⟩

/-- Where a directory stands, there is no file. -/
theorem way_ne_of_directory (wf : fs.WellFormed) {top way : Location}
    (hdir : fs.get? (top ++ way) = some .directory) {file : WalkedFile}
    (hfile : file ∈ fs.filesBelow top) : file.way ≠ way := by
  obtain ⟨executable, hmem⟩ := mem_filesBelow.mp hfile
  have hget := (wf.mem_nodes_iff.mp hmem).2
  rintro rfl
  rw [hdir] at hget
  cases hget

theorem directory?_eq_some {p : PathText} {top : Location} :
    fs.directory? p = some top ↔ fs.find? p = some (top, .directory) := by
  unfold directory?
  split
  next loc hfind => simp [hfind]
  next hother => exact iff_of_false (by simp) (hother top)

/-- Paths with the same components that lead to directories lead to the same directory. -/
theorem directory?_of_same {p q : PathText} (h : Path.same p q = true) {top other : Location}
    (hp : fs.directory? p = some top) (hq : fs.directory? q = some other) : top = other := by
  obtain ⟨htop, -⟩ := find?_directory_trail (directory?_eq_some.mp hp)
  obtain ⟨hother, -⟩ := find?_directory_trail (directory?_eq_some.mp hq)
  rw [htop, hother, locate, locate, start, start, Path.isAbsolute_of_same h, Path.steps_of_same h]

end FileSystem

open FileSystem

namespace TreeArea

theorem ofDecompiled_eq_manifest_iff (rawHasMetadata : Bool) (way : Location) :
    ofDecompiled rawHasMetadata way = .manifest ↔ way = [manifestName] := by
  unfold ofDecompiled
  split
  next hway => simp [hway]
  next hway =>
    refine iff_of_false ?_ hway
    repeat' split
    all_goals simp

/-- In the resource directory, the file type tells the area. -/
theorem ofDecompiled_resources (rawHasMetadata : Bool) {way : Location}
    (h : [resourceDirectory] <+: way) :
    ofDecompiled rawHasMetadata way = if isXml way then .resourceXml else .resource := by
  have hmanifest : way ≠ [manifestName] := by
    rintro rfl
    exact absurd h (by decide)
  cases way with
  | nil => simp at h
  | cons top below =>
    rw [singleton_prefix_cons] at h
    rw [ofDecompiled.eq_def, if_neg hmanifest]
    simp [h]

/-- Only what stands in the resource directory is a resource. -/
theorem prefix_of_ofDecompiled {rawHasMetadata : Bool} {way : Location}
    (h : ofDecompiled rawHasMetadata way = .resourceXml
      ∨ ofDecompiled rawHasMetadata way = .resource) : [resourceDirectory] <+: way := by
  unfold ofDecompiled at h
  split at h
  next => simp at h
  next =>
    cases way with
    | nil => simp at h
    | cons top below =>
      rw [singleton_prefix_cons]
      by_contra htop
      dsimp only at h
      rw [if_neg htop] at h
      repeat' split at h
      all_goals simp at h

theorem ofDecompiled_eq_resourceXml_iff (rawHasMetadata : Bool) (way : Location) :
    ofDecompiled rawHasMetadata way = .resourceXml
      ↔ ([resourceDirectory] <+: way ∧ way ≠ [resourceDirectory]) ∧ isXml way = true := by
  constructor
  · intro h
    have hunder := prefix_of_ofDecompiled (Or.inl h)
    rw [ofDecompiled_resources _ hunder] at h
    split at h
    next hxml =>
      refine ⟨⟨hunder, ?_⟩, hxml⟩
      rintro rfl
      exact absurd hxml (by decide)
    next => cases h
  · rintro ⟨⟨hunder, -⟩, hxml⟩
    rw [ofDecompiled_resources _ hunder, if_pos hxml]

/-- Code stands below a directory at the top that has a name for code. -/
theorem ofDecompiled_eq_code_iff (rawHasMetadata : Bool) (way : Location) :
    ofDecompiled rawHasMetadata way = .code
      ↔ ∃ top name more, way = top :: name :: more ∧ isCodeRoot top = true := by
  constructor
  · intro h
    unfold ofDecompiled at h
    split at h
    next => cases h
    next =>
      rcases way with _ | ⟨top, _ | ⟨name, more⟩⟩
      · cases h
      · dsimp only at h
        repeat' split at h
        all_goals simp_all
      · refine ⟨top, name, more, rfl, ?_⟩
        dsimp only at h
        repeat' split at h
        all_goals simp_all
  · rintro ⟨top, name, more, rfl, hroot⟩
    have hresource : top ≠ resourceDirectory := by
      rintro rfl
      exact absurd hroot (by decide)
    simp [ofDecompiled, hresource, hroot]

theorem ofDecompiled_eq_libraryMetadata_iff (rawHasMetadata : Bool) (way : Location) :
    ofDecompiled rawHasMetadata way = .libraryMetadata
      ↔ rawHasMetadata = false ∧ [keptDirectory, metadataDirectory] <+: way := by
  have hkept : keptDirectory ≠ resourceDirectory ∧ isCodeRoot keptDirectory = false := by decide
  unfold ofDecompiled
  split
  next hway =>
    have hother : ¬[keptDirectory, metadataDirectory] <+: [manifestName] := by decide
    simp [hway, hother]
  next =>
    cases way with
    | nil => simp
    | cons top below =>
      dsimp only
      by_cases htop : top = keptDirectory
      · have hunder : [keptDirectory, metadataDirectory] <+: keptDirectory :: below
            ↔ below.head? = some metadataDirectory := by
          cases below <;> simp [List.cons_prefix_cons, eq_comm]
        subst htop
        rw [hunder]
        simp only [hkept, if_false, Bool.false_and, Bool.false_eq_true, decide_true, Bool.true_and]
        cases rawHasMetadata <;> simp
      · refine iff_of_false ?_ fun h => htop (List.cons_prefix_cons.mp h.2).1.symm
        simp only [htop, decide_false, Bool.false_and, Bool.false_eq_true, if_false]
        repeat' split
        all_goals simp

end TreeArea

namespace IndexedFile

/-- The file as it was met on a walk. -/
def walked (file : IndexedFile) : WalkedFile :=
  { way := file.way, content := file.content }

end IndexedFile

namespace PackageIndex

theorem hasArea_build (fs : FileSystem) (decompiled raw : PathText) (area : TreeArea) :
    (build fs decompiled raw).hasArea area = isPresent fs decompiled raw area := by
  have hmem : area ∈ TreeArea.all := by cases area <;> decide
  rw [Bool.eq_iff_iff, hasArea, List.contains_iff_mem]
  simp [build, hmem]

theorem map_walked_treeFiles (fs : FileSystem) (root : PathText) (classify : Location → TreeArea)
    (area : TreeArea) :
    ((treeFiles fs root classify).filter fun file => file.area == area).map IndexedFile.walked
      = (fs.walkPath root).filter fun file => classify file.way == area := by
  rw [filter_treeFiles, List.map_map]
  exact List.map_id'' (fun file => rfl) _

/-- What a raw tree gives an area stands below the directory of the area. -/
theorem filter_ofRaw (fs : FileSystem) (top : Location) {area : TreeArea} {directory : String}
    (hplace : area.rawDirectory? = some directory) :
    ((fs.filesBelow top).filter fun file => TreeArea.ofRaw file.way == area)
      = fs.filesUnder top [directory] := by
  refine List.filter_congr fun file _ => ?_
  rw [Bool.eq_iff_iff, beq_iff_eq, decide_eq_true_eq]
  exact TreeArea.ofRaw_eq_iff hplace file.way

/-! ## A file of an area -/

section Members

variable {fs : FileSystem} {root decompiled raw : PathText} {classify : Location → TreeArea}
  {area : TreeArea} {file : IndexedFile}

theorem area_of_mem_treeFiles (hfile : file ∈ treeFiles fs root classify) :
    file.area = classify file.way := by
  obtain ⟨met, -, rfl⟩ := List.mem_map.mp hfile
  rfl

/-- A file that an index lists is one of a tree, and its area is one that the way has in a raw or in
a decompiled tree. -/
theorem exists_treeFiles_of_mem (hfile : file ∈ (build fs decompiled raw).files) :
    ∃ root classify, file ∈ treeFiles fs root classify ∧
      ∀ area way, area ≠ .other → classify way = area → TreeArea.Claims area way := by
  unfold build at hfile
  dsimp only at hfile
  split at hfile
  next =>
    refine ⟨_, _, hfile, fun area way harea hclaims => ?_⟩
    exact ((TreeArea.ofBoth_eq_iff harea _ way).mp hclaims).symm.imp_right fun h => ⟨_, h⟩
  next =>
    rcases List.mem_append.mp hfile with hfile | hfile
    · exact ⟨_, _, hfile, fun _ _ _ hclaims => Or.inr ⟨_, hclaims⟩⟩
    · exact ⟨_, _, hfile, fun _ _ _ hclaims => Or.inl hclaims⟩

theorem claims_of_mem_filesIn (harea : area ≠ .other)
    (hfile : file ∈ (build fs decompiled raw).filesIn area) : area.Claims file.way := by
  obtain ⟨hmem, hclaimed⟩ := List.mem_filter.mp hfile
  obtain ⟨root, classify, hlisted, hclaims⟩ := exists_treeFiles_of_mem hmem
  rw [beq_iff_eq, area_of_mem_treeFiles hlisted] at hclaimed
  exact hclaims area file.way harea hclaimed

/-- A file of an area is named by the end of its way. -/
theorem name_of_mem_filesIn (harea : area ≠ .other)
    (hfile : file ∈ (build fs decompiled raw).filesIn area) :
    file.way.getLast? = some file.name := by
  have hway := (claims_of_mem_filesIn harea hfile).ne_nil harea
  obtain ⟨root, classify, hlisted, -⟩ := exists_treeFiles_of_mem (List.mem_filter.mp hfile).1
  obtain ⟨met, -, rfl⟩ := List.mem_map.mp hlisted
  change met.way ≠ [] at hway
  simp [indexed, List.getLast?_eq_some_getLast hway]

end Members

section Trees

variable {fs : FileSystem} {decompiled raw : PathText} {unpacked shipped : Location}

theorem walkPath_perm {p : PathText} {top : Location} (h : fs.directory? p = some top) :
    (fs.walkPath p).Perm (fs.filesBelow top) := by
  rw [walkPath, directory?_eq_some.mp h]
  exact walk_perm fs top

theorem isDirectory_of_directory? {p : PathText} {top : Location}
    (h : fs.directory? p = some top) : fs.isDirectory p = true := by
  rw [isDirectory, directory?_eq_some.mp h]

theorem isPresent_manifest (hdecompiled : fs.directory? decompiled = some unpacked) :
    isPresent fs decompiled raw .manifest = true
      ↔ (fs.contentAt? (unpacked ++ [manifestName])).isSome = true := by
  have hname : Storable manifestName := by decide
  have hresolve := resolve_join_name (directory?_eq_some.mp hdecompiled) hname
  unfold isPresent isFile find? FileSystem.contentAt?
  rw [hresolve]
  rcases fs.get? (unpacked ++ [manifestName]) with _ | _ | ⟨content, executable⟩ <;> rfl

theorem isPresent_resourceXml (hdecompiled : fs.directory? decompiled = some unpacked) :
    isPresent fs decompiled raw .resourceXml = true
      ↔ fs.get? (unpacked ++ [TreeArea.resourceDirectory]) = some .directory :=
  isDirectory_join_name (directory?_eq_some.mp hdecompiled) (by decide)

/-- There is code if some directory at the top of the decompiled tree has a name for code. -/
theorem isPresent_code (wf : fs.WellFormed)
    (hdecompiled : fs.directory? decompiled = some unpacked) :
    isPresent fs decompiled raw .code = true
      ↔ ∃ name, TreeArea.isCodeRoot name = true ∧
          fs.get? (unpacked ++ [name]) = some .directory := by
  have hentries : fs.entriesAt decompiled = fs.entries unpacked := by
    rw [entriesAt, hdecompiled]
  rw [isPresent, findCodeRoots, hentries, Bool.not_eq_true', ← Bool.not_eq_true,
    List.isEmpty_iff_length_eq_zero, List.length_map, List.length_mergeSort, ← ne_eq,
    ← Nat.pos_iff_ne_zero, List.length_pos_iff_exists_mem]
  refine exists_congr fun name => ?_
  rw [← mem_entries wf, List.mem_filterMap]
  simp [and_comm]

theorem isPresent_shipped (hraw : fs.directory? raw = some shipped) {area : TreeArea}
    {directory : String} (hplace : area.rawDirectory? = some directory)
    (hmetadata : area ≠ .libraryMetadata) :
    isPresent fs decompiled raw area = true
      ↔ fs.get? (shipped ++ [directory]) = some .directory := by
  have hfind := directory?_eq_some.mp hraw
  cases area <;> simp only [TreeArea.rawDirectory?, Option.some_inj, reduceCtorEq] at hplace
  case libraryMetadata => exact absurd rfl hmetadata
  all_goals
    subst hplace
    exact isDirectory_join_name hfind (by decide)

theorem isDirectory_kept (wf : fs.WellFormed)
    (hdecompiled : fs.directory? decompiled = some unpacked) :
    fs.isDirectory (Path.join (Path.join decompiled TreeArea.keptDirectory)
        TreeArea.metadataDirectory) = true
      ↔ fs.get? (unpacked ++ [TreeArea.keptDirectory, TreeArea.metadataDirectory])
          = some .directory := by
  have hjoined : Path.join TreeArea.keptDirectory TreeArea.metadataDirectory
      = "/".intercalate [TreeArea.keptDirectory, TreeArea.metadataDirectory] := by decide
  rw [Path.join_join (by decide) (by decide) (by decide) (by decide), hjoined]
  exact isDirectory_join_names wf (directory?_eq_some.mp hdecompiled) (by simp) (by decide)
    (by decide)

theorem isPresent_libraryMetadata (wf : fs.WellFormed)
    (hdecompiled : fs.directory? decompiled = some unpacked)
    (hraw : fs.directory? raw = some shipped) :
    isPresent fs decompiled raw .libraryMetadata = true
      ↔ fs.get? (shipped ++ [TreeArea.metadataDirectory]) = some .directory ∨
        fs.get? (unpacked ++ [TreeArea.keptDirectory, TreeArea.metadataDirectory])
          = some .directory := by
  have hname : Storable TreeArea.metadataDirectory := by decide
  rw [← isDirectory_join_name (directory?_eq_some.mp hraw) hname,
    ← isDirectory_kept wf hdecompiled, isPresent, findMetadata]
  split
  next hthere => simp [hthere]
  next hthere => split <;> simp_all

variable (wf : fs.WellFormed) (hdecompiled : fs.directory? decompiled = some unpacked)
  (hraw : fs.directory? raw = some shipped)

include wf hdecompiled hraw

theorem filesIn_trees {area : TreeArea} (harea : area ≠ .other) :
    (build fs decompiled raw).filesIn area
      = ((treeFiles fs decompiled (TreeArea.ofDecompiled
            (fs.isDirectory (Path.join raw TreeArea.metadataDirectory))))
          ++ treeFiles fs raw TreeArea.ofRaw).filter fun file => file.area == area := by
  refine filesIn_build wf (isDirectory_of_directory? hdecompiled)
    (isDirectory_of_directory? hraw) (fun hsame => ?_) harea
  rw [walkPath, walkPath, directory?_eq_some.mp hdecompiled, directory?_eq_some.mp hraw,
    directory?_of_same hsame hdecompiled hraw]

/-- The files of an area are those that the classifications of the two trees give it. -/
theorem filesIn_perm {area : TreeArea} (harea : area ≠ .other) :
    (((build fs decompiled raw).filesIn area).map IndexedFile.walked).Perm
      ((fs.filesBelow unpacked).filter (fun file => TreeArea.ofDecompiled
          (fs.isDirectory (Path.join raw TreeArea.metadataDirectory)) file.way == area)
        ++ (fs.filesBelow shipped).filter fun file => TreeArea.ofRaw file.way == area) := by
  rw [filesIn_trees wf hdecompiled hraw harea, List.filter_append, List.map_append,
    map_walked_treeFiles, map_walked_treeFiles]
  exact ((walkPath_perm hdecompiled).filter _).append ((walkPath_perm hraw).filter _)

/-- An area without a place in a raw tree has the files that the decompiled tree gives it. -/
theorem decompiled_perm {area : TreeArea} (harea : area ≠ .other)
    (hplace : area.rawDirectory? = none) :
    (((build fs decompiled raw).filesIn area).map IndexedFile.walked).Perm
      ((fs.filesBelow unpacked).filter fun file => TreeArea.ofDecompiled
          (fs.isDirectory (Path.join raw TreeArea.metadataDirectory)) file.way == area) := by
  have hnone : ((fs.filesBelow shipped).filter fun file => TreeArea.ofRaw file.way == area) = [] :=
    filter_eq_nil fun file _ => TreeArea.ofRaw_ne harea hplace file.way
  have hperm := filesIn_perm wf hdecompiled hraw harea
  rwa [hnone, List.append_nil] at hperm

/-- An area that the decompiled tree does not have has the files below its directory in the raw
tree. -/
theorem raw_perm {area : TreeArea} {directory : String}
    (hplace : area.rawDirectory? = some directory)
    (hnever : ∀ way, TreeArea.ofDecompiled
      (fs.isDirectory (Path.join raw TreeArea.metadataDirectory)) way ≠ area) :
    (((build fs decompiled raw).filesIn area).map IndexedFile.walked).Perm
      (fs.filesUnder shipped [directory]) := by
  have harea : area ≠ .other := by
    rintro rfl
    cases hplace
  refine (filesIn_perm wf hdecompiled hraw harea).trans (List.Perm.of_eq ?_)
  rw [filter_eq_nil fun file _ => hnever file.way, List.nil_append,
    filter_ofRaw fs shipped hplace]

/-- The manifest is the file of that name at the top of the decompiled tree. -/
theorem manifest_perm :
    (((build fs decompiled raw).filesIn .manifest).map IndexedFile.walked).Perm
      ((fs.contentAt? (unpacked ++ [manifestName])).toList.map fun content =>
        { way := [manifestName], content }) := by
  refine (decompiled_perm wf hdecompiled hraw (by decide) rfl).trans ?_
  refine (List.perm_ext_iff_of_nodup ?_ ?_).mpr fun file => ?_
  · exact (List.Nodup.of_map _ (filesBelow_ways_nodup wf unpacked)).filter _
  · cases fs.contentAt? (unpacked ++ [manifestName]) <;> simp
  · rw [List.mem_filter, ← (walk_perm fs unpacked).mem_iff, mem_walk wf, beq_iff_eq,
      TreeArea.ofDecompiled_eq_manifest_iff]
    obtain ⟨way, content⟩ := file
    constructor
    · rintro ⟨hcontent, rfl⟩
      simp [hcontent]
    · intro hmem
      obtain ⟨found, hfound, heq⟩ := List.mem_map.mp hmem
      cases heq
      exact ⟨Option.mem_toList.mp hfound, rfl⟩

/-- The resource files in XML are those below the resource directory that are XML by their path. -/
theorem resourceXml_perm :
    (((build fs decompiled raw).filesIn .resourceXml).map IndexedFile.walked).Perm
      ((fs.filesUnder unpacked [TreeArea.resourceDirectory]).filter fun file =>
        TreeArea.isXml file.way) := by
  refine (decompiled_perm wf hdecompiled hraw (by decide) rfl).trans ?_
  rw [filesUnder, List.filter_filter]
  refine List.Perm.of_eq (List.filter_congr fun file _ => ?_)
  rw [Bool.eq_iff_iff, beq_iff_eq, TreeArea.ofDecompiled_eq_resourceXml_iff, Bool.and_eq_true,
    decide_eq_true_eq, and_comm]

/-- The files of native libraries, and the assets, are those below their directory in the raw
tree. -/
theorem shipped_perm {area : TreeArea} {directory : String}
    (hplace : area.rawDirectory? = some directory) (hmetadata : area ≠ .libraryMetadata) :
    (((build fs decompiled raw).filesIn area).map IndexedFile.walked).Perm
      (fs.filesUnder shipped [directory]) :=
  raw_perm wf hdecompiled hraw hplace (TreeArea.ofDecompiled_ne hplace (Or.inl hmetadata))

/-- The metadata are the files below their directory in the raw tree, if it is there, else those
below the copy that the decompiler kept. -/
theorem libraryMetadata_perm
    (hthere : fs.get? (shipped ++ [TreeArea.metadataDirectory]) = some .directory ∨
      fs.get? (unpacked ++ [TreeArea.keptDirectory, TreeArea.metadataDirectory])
        = some .directory) :
    (((build fs decompiled raw).filesIn .libraryMetadata).map IndexedFile.walked).Perm
      (if fs.get? (shipped ++ [TreeArea.metadataDirectory]) = some .directory then
        fs.filesUnder shipped [TreeArea.metadataDirectory]
      else fs.filesUnder unpacked [TreeArea.keptDirectory, TreeArea.metadataDirectory]) := by
  have hname : Storable TreeArea.metadataDirectory := by decide
  have hraw_iff := isDirectory_join_name (directory?_eq_some.mp hraw) hname
  split
  next hshipped =>
    refine raw_perm wf hdecompiled hraw rfl (TreeArea.ofDecompiled_ne rfl (Or.inr ?_))
    exact hraw_iff.mpr hshipped
  next hnone =>
    have hmissing : fs.isDirectory (Path.join raw TreeArea.metadataDirectory) = false := by
      simpa using hraw_iff.not.mpr hnone
    refine (filesIn_perm wf hdecompiled hraw (by decide)).trans (List.Perm.of_eq ?_)
    rw [filter_ofRaw fs shipped rfl, filesUnder_eq_nil wf hnone, List.append_nil, filesUnder]
    refine List.filter_congr fun file hfile => ?_
    have hway := way_ne_of_directory wf (hthere.resolve_left hnone) hfile
    rw [Bool.eq_iff_iff, beq_iff_eq, TreeArea.ofDecompiled_eq_libraryMetadata_iff,
      and_iff_right hmissing, decide_eq_true_eq, and_iff_left hway]

end Trees

end PackageIndex
end SdkEvidence
