import SdkEvidence.Metadata.Extract
import SdkEvidence.Proofs.Evidence.Tally
import SdkEvidence.Proofs.Repetition
import SdkEvidence.Proofs.Tree.Places

/-!
# Areas that have files are there

An area that has files counts as being there, since what stands below a directory needs the
directory (`hasArea_or_namesakes`). Two areas take one file more: a regular file at the place where
the directory of the area is meant to stand is told to the area by its name alone, though the area
is not there then (`namesakes`). The files of the library metadata stand below the metadata
directory (`libraryMetadata_perm_walkPath`), and so do the version stamps (`build_presence`).
-/
namespace SdkEvidence

open FileSystem

/-- The place of a directory whose name alone puts a regular file in the area, if it stands there
instead of the directory. -/
def TreeArea.namesakeWay? : TreeArea → Option Location
  | .resource => some [resourceDirectory]
  | .libraryMetadata => some [keptDirectory, metadataDirectory]
  | _ => none

/-- The regular file of a decompiled tree that stands in the place of an area's directory. -/
def FileSystem.namesakes (fs : FileSystem) (unpacked : Location) (area : TreeArea) :
    List WalkedFile :=
  match area.namesakeWay? with
  | some way => (fs.contentAt? (unpacked ++ way)).toList.map fun content => { way, content }
  | none => []

namespace TreeArea

theorem ofDecompiled_eq_resource_iff (rawHasMetadata : Bool) (way : Location) :
    ofDecompiled rawHasMetadata way = .resource
      ↔ [resourceDirectory] <+: way ∧ isXml way = false := by
  constructor
  · intro h
    have hunder := prefix_of_ofDecompiled (Or.inr h)
    rw [ofDecompiled_resources _ hunder] at h
    cases hxml : isXml way with
    | false => exact ⟨hunder, rfl⟩
    | true => simp [hxml] at h
  · rintro ⟨hunder, hxml⟩
    simp [ofDecompiled_resources _ hunder, hxml]

end TreeArea

namespace FileSystem

variable {fs : FileSystem} {top way : Location}

/-- Below a place where no directory stands there are no files. -/
theorem way_eq_of_isPrefix (wf : fs.WellFormed) (hnone : fs.get? (top ++ way) ≠ some .directory)
    {file : WalkedFile} (hcontent : fs.contentAt? (top ++ file.way) = some file.content)
    (hway : way <+: file.way) : file.way = way := by
  obtain ⟨more, hmore⟩ := hway
  cases more with
  | nil => rw [← hmore, List.append_nil]
  | cons name more =>
    obtain ⟨executable, hget⟩ := contentAt?_eq_some.mp hcontent
    rw [← hmore, ← List.append_assoc] at hget
    exact absurd (wf.directory_of_below (by simp) (Option.isSome_of_eq_some hget)) hnone

/-- Where no directory stands, at most one file has a way that starts so: the file that stands there
itself. -/
theorem filter_prefix_of_not_directory (wf : fs.WellFormed)
    (hnone : fs.get? (top ++ way) ≠ some .directory) :
    ((fs.filesBelow top).filter fun file => decide (way <+: file.way))
      = (fs.contentAt? (top ++ way)).toList.map fun content => { way, content } := by
  have hnodup := (List.Nodup.of_map _ (filesBelow_ways_nodup wf top)).filter
    fun file => decide (way <+: file.way)
  have hmem (file : WalkedFile) :
      file ∈ (fs.filesBelow top).filter (fun file => decide (way <+: file.way))
        ↔ file.way = way ∧ fs.contentAt? (top ++ way) = some file.content := by
    rw [List.mem_filter, ← (walk_perm fs top).mem_iff, mem_walk wf, decide_eq_true_eq]
    constructor
    · rintro ⟨hcontent, hway⟩
      have heq := way_eq_of_isPrefix wf hnone hcontent hway
      exact ⟨heq, heq ▸ hcontent⟩
    · rintro ⟨rfl, hcontent⟩
      exact ⟨hcontent, List.prefix_rfl⟩
  cases hcontent : fs.contentAt? (top ++ way) with
  | none =>
    rw [Option.toList_none, List.map_nil, List.eq_nil_iff_forall_not_mem]
    intro file hfile
    rw [hmem, hcontent] at hfile
    exact absurd hfile.2 (by simp)
  | some content =>
    refine List.perm_singleton.mp ((List.perm_ext_iff_of_nodup hnodup (by simp)).mpr fun file => ?_)
    rw [hmem, hcontent]
    obtain ⟨_, _⟩ := file
    simp [eq_comm]

/-- The files below a way are those of a walk that starts where the way leads. -/
theorem filesUnder_perm_walk (wf : fs.WellFormed) (hdir : fs.get? (top ++ way) = some .directory) :
    (fs.filesUnder top way).Perm
      ((fs.walk (top ++ way)).map fun file => { file with way := way ++ file.way }) := by
  have hwalk : (fs.walk (top ++ way)).Nodup :=
    ((walk_perm fs _).nodup_iff).mpr (List.Nodup.of_map _ (filesBelow_ways_nodup wf _))
  have hmap : ((fs.walk (top ++ way)).map
      fun file => { file with way := way ++ file.way }).Nodup := by
    refine hwalk.map fun a b hab => ?_
    obtain ⟨_, _⟩ := a
    obtain ⟨_, _⟩ := b
    simpa using hab
  refine (List.perm_ext_iff_of_nodup
    ((List.Nodup.of_map _ (filesBelow_ways_nodup wf top)).filter _) hmap).mpr fun file => ?_
  refine (mem_filesUnder wf).trans ?_
  rw [List.mem_map]
  constructor
  · rintro ⟨name, more, hway, hcontent⟩
    refine ⟨{ file with way := name :: more }, ?_, by simp [← hway]⟩
    rw [mem_walk wf, List.append_assoc, ← hway]
    exact hcontent
  · rintro ⟨met, hmet, rfl⟩
    rw [mem_walk wf, List.append_assoc] at hmet
    cases hnames : met.way with
    | nil =>
      rw [hnames, List.append_nil, contentAt?_of_directory hdir] at hmet
      cases hmet
    | cons name more => exact ⟨name, more, rfl, hnames ▸ hmet⟩

end FileSystem

namespace VersionStamp

/-- A stamp that is kept is one that was there. -/
theorem mem_of_mem_distinct {stamps : List VersionStamp} {stamp : VersionStamp}
    (h : stamp ∈ distinct stamps) : stamp ∈ stamps :=
  (eraseRepsBy_sublist _ stamps).subset h

theorem exists_file_of_mem_read {fs : FileSystem} {directory : PathText} {stamp : VersionStamp}
    (h : stamp ∈ read fs directory) :
    ∃ file ∈ fs.walkPath directory, ofFile? ((file.way.getLast?).getD
      ((Path.fileName? directory).getD directory)) file.content = some stamp := by
  have hmem := mem_of_mem_distinct h
  rw [List.mem_mergeSort] at hmem
  obtain ⟨file, hfile, hstamp⟩ := List.mem_filterMap.mp hmem
  exact ⟨file, (List.mem_filter.mp hfile).1, hstamp⟩

end VersionStamp

namespace PackageIndex

section Trees

variable {fs : FileSystem} {decompiled raw : PathText} {unpacked shipped : Location}
  (wf : fs.WellFormed) (hdecompiled : fs.directory? decompiled = some unpacked)
  (hraw : fs.directory? raw = some shipped)

include wf hdecompiled hraw

/-- An area whose files the decompiled tree tells by the start of their ways has no file without the
directory, but for a file in its place. -/
theorem namesakes_of_absent {area : TreeArea} {way : Location} (harea : area ≠ .other)
    (hway : area.namesakeWay? = some way)
    (hnone : fs.get? (unpacked ++ way) ≠ some .directory)
    (hnever : ∀ file ∈ fs.filesBelow shipped, TreeArea.ofRaw file.way ≠ area)
    (hclaims : ∀ file ∈ fs.filesBelow unpacked, TreeArea.ofDecompiled
      (fs.isDirectory (Path.join raw TreeArea.metadataDirectory)) file.way = area
        ↔ way <+: file.way) :
    ((build fs decompiled raw).filesIn area).map IndexedFile.walked
      = fs.namesakes unpacked area := by
  have hperm := filesIn_perm wf hdecompiled hraw harea
  have hclaimed : ∀ file ∈ fs.filesBelow unpacked,
      (TreeArea.ofDecompiled (fs.isDirectory (Path.join raw TreeArea.metadataDirectory)) file.way
        == area) = decide (way <+: file.way) := by
    intro file hfile
    rw [Bool.eq_iff_iff, beq_iff_eq, decide_eq_true_eq]
    exact hclaims file hfile
  rw [filter_eq_nil hnever, List.append_nil, List.filter_congr hclaimed,
    filter_prefix_of_not_directory wf hnone] at hperm
  rw [FileSystem.namesakes, hway]
  dsimp only
  cases hcontent : fs.contentAt? (unpacked ++ way) with
  | none => simpa [hcontent] using hperm
  | some content => simpa [hcontent] using hperm

theorem resource_of_absent
    (hnone : fs.get? (unpacked ++ [TreeArea.resourceDirectory]) ≠ some .directory) :
    ((build fs decompiled raw).filesIn .resource).map IndexedFile.walked
      = fs.namesakes unpacked .resource := by
  refine namesakes_of_absent wf hdecompiled hraw (by decide) rfl hnone
    (fun file _ => TreeArea.ofRaw_ne (by decide) rfl file.way) fun file hfile => ?_
  rw [TreeArea.ofDecompiled_eq_resource_iff, and_iff_left_iff_imp]
  intro hway
  rw [← (walk_perm fs unpacked).mem_iff, mem_walk wf] at hfile
  rw [way_eq_of_isPrefix wf hnone hfile hway]
  decide

theorem libraryMetadata_of_absent
    (hshipped : fs.get? (shipped ++ [TreeArea.metadataDirectory]) ≠ some .directory)
    (hkept : fs.get? (unpacked ++ [TreeArea.keptDirectory, TreeArea.metadataDirectory])
      ≠ some .directory) :
    ((build fs decompiled raw).filesIn .libraryMetadata).map IndexedFile.walked
      = fs.namesakes unpacked .libraryMetadata := by
  have hname : Storable TreeArea.metadataDirectory := by decide
  have hmissing : fs.isDirectory (Path.join raw TreeArea.metadataDirectory) = false := by
    rw [← Bool.not_eq_true, isDirectory_join_name (directory?_eq_some.mp hraw) hname]
    exact hshipped
  refine namesakes_of_absent wf hdecompiled hraw (by decide) rfl hkept (fun file hfile => ?_)
    fun file _ => ?_
  · rw [ne_eq, TreeArea.ofRaw_eq_iff rfl]
    rintro ⟨hway, hne⟩
    rw [← (walk_perm fs shipped).mem_iff, mem_walk wf] at hfile
    exact hne (way_eq_of_isPrefix wf hshipped hfile hway)
  · rw [TreeArea.ofDecompiled_eq_libraryMetadata_iff, and_iff_right hmissing]

theorem code_of_absent
    (hnone : ¬∃ name, TreeArea.isCodeRoot name = true ∧
      fs.get? (unpacked ++ [name]) = some .directory) :
    ((build fs decompiled raw).filesIn .code).map IndexedFile.walked = [] := by
  have hperm := decompiled_perm wf hdecompiled hraw (show TreeArea.code ≠ .other by decide) rfl
  rw [filter_eq_nil fun file hfile hcode => ?_] at hperm
  · exact hperm.eq_nil
  obtain ⟨top, name, more, hway, hroot⟩ :=
    (TreeArea.ofDecompiled_eq_code_iff _ file.way).mp hcode
  rw [← (walk_perm fs unpacked).mem_iff, mem_walk wf] at hfile
  have hother : file.way ≠ [top] := by simp [hway]
  refine hother (way_eq_of_isPrefix wf (fun hdir => hnone ⟨top, hroot, hdir⟩) hfile ?_)
  simp [hway]

theorem shipped_of_absent {area : TreeArea} {directory : String}
    (hplace : area.rawDirectory? = some directory) (hmetadata : area ≠ .libraryMetadata)
    (hway : area.namesakeWay? = none) (habsent : isPresent fs decompiled raw area ≠ true) :
    ((build fs decompiled raw).filesIn area).map IndexedFile.walked
      = fs.namesakes unpacked area := by
  have hperm := shipped_perm wf hdecompiled hraw hplace hmetadata
  rw [filesUnder_eq_nil wf (mt (isPresent_shipped hraw hplace hmetadata).mpr habsent)] at hperm
  rw [hperm.eq_nil, FileSystem.namesakes, hway]

/-- An area that is not there has no files, but for one in the place of its directory. -/
theorem filesIn_of_absent {area : TreeArea} (harea : area ≠ .other)
    (habsent : (build fs decompiled raw).hasArea area ≠ true) :
    ((build fs decompiled raw).filesIn area).map IndexedFile.walked
      = fs.namesakes unpacked area := by
  rw [hasArea_build] at habsent
  cases area with
  | manifest =>
    have hnone := mt (isPresent_manifest hdecompiled).mpr habsent
    have hperm := manifest_perm wf hdecompiled hraw
    rw [Option.not_isSome_iff_eq_none.mp hnone] at hperm
    exact hperm.eq_nil
  | resourceXml =>
    have hnone := mt (isPresent_resourceXml hdecompiled).mpr habsent
    have hperm := resourceXml_perm wf hdecompiled hraw
    rw [filesUnder_eq_nil wf hnone] at hperm
    exact hperm.eq_nil
  | resource =>
    have hdir : isPresent fs decompiled raw .resource = true
        ↔ fs.get? (unpacked ++ [TreeArea.resourceDirectory]) = some .directory :=
      isDirectory_join_name (directory?_eq_some.mp hdecompiled) (by decide)
    exact resource_of_absent wf hdecompiled hraw (mt hdir.mpr habsent)
  | code =>
    exact code_of_absent wf hdecompiled hraw ((isPresent_code wf hdecompiled).not.mp habsent)
  | nativeLibrary => exact shipped_of_absent wf hdecompiled hraw rfl (by decide) rfl habsent
  | asset => exact shipped_of_absent wf hdecompiled hraw rfl (by decide) rfl habsent
  | libraryMetadata =>
    obtain ⟨hshipped, hkept⟩ :=
      not_or.mp ((isPresent_libraryMetadata wf hdecompiled hraw).not.mp habsent)
    exact libraryMetadata_of_absent wf hdecompiled hraw hshipped hkept
  | other => exact absurd rfl harea

/-- The directory of the metadata stands in the raw tree, or else in the decompiled one. -/
theorem directory?_metadata {directory : PathText}
    (hmetadata : (build fs decompiled raw).metadata = some directory) :
    (fs.get? (shipped ++ [TreeArea.metadataDirectory]) = some .directory ∧
        fs.directory? directory = some (shipped ++ [TreeArea.metadataDirectory])) ∨
      (fs.get? (shipped ++ [TreeArea.metadataDirectory]) ≠ some .directory ∧
        fs.directory? directory
          = some (unpacked ++ [TreeArea.keptDirectory, TreeArea.metadataDirectory])) := by
  have hname : Storable TreeArea.metadataDirectory := by decide
  have hshipped := isDirectory_join_name (directory?_eq_some.mp hraw) hname
  have hkept := isDirectory_kept wf hdecompiled
  change findMetadata fs decompiled raw = some directory at hmetadata
  unfold findMetadata at hmetadata
  dsimp only at hmetadata
  split at hmetadata
  next hthere =>
    cases hmetadata
    refine Or.inl ⟨hshipped.mp hthere, directory?_eq_some.mpr (find?_eq_some.mpr ?_)⟩
    rw [resolve_join_name (directory?_eq_some.mp hraw) hname, hshipped.mp hthere]
  next hmissing =>
    split at hmetadata
    next hthere =>
      cases hmetadata
      refine Or.inr ⟨mt hshipped.mpr hmissing, directory?_eq_some.mpr ?_⟩
      have hjoined : Path.join TreeArea.keptDirectory TreeArea.metadataDirectory
          = "/".intercalate [TreeArea.keptDirectory, TreeArea.metadataDirectory] := by decide
      rw [Path.join_join (by decide) (by decide) (by decide) (by decide), hjoined]
      exact (find?_join_names wf (directory?_eq_some.mp hdecompiled) (by simp) (by decide)
        (by decide)).mpr ⟨rfl, hkept.mp hthere⟩
    next => cases hmetadata

/-- The library metadata are the files below the metadata directory. -/
theorem libraryMetadata_perm_walkPath {directory : PathText}
    (hmetadata : (build fs decompiled raw).metadata = some directory) :
    ∃ root lead, (root = unpacked ∨ root = shipped) ∧
      fs.directory? directory = some (root ++ lead) ∧
      (((build fs decompiled raw).filesIn .libraryMetadata).map IndexedFile.walked).Perm
        ((fs.walkPath directory).map fun file => { file with way := lead ++ file.way }) := by
  have hwalk {root lead : Location} (hdir : fs.directory? directory = some (root ++ lead)) :
      fs.get? (root ++ lead) = some .directory ∧
        fs.walkPath directory = fs.walk (root ++ lead) := by
    have hfind := directory?_eq_some.mp hdir
    refine ⟨?_, by rw [walkPath, hfind]⟩
    obtain ⟨hloc, htrail⟩ := find?_directory_trail hfind
    exact hloc ▸ htrail _ (locate_mem_trail fs directory)
  rcases directory?_metadata wf hdecompiled hraw hmetadata with ⟨hshipped, hdir⟩ | ⟨hnone, hdir⟩
  · refine ⟨shipped, _, Or.inr rfl, hdir, ?_⟩
    have hperm := libraryMetadata_perm wf hdecompiled hraw (Or.inl hshipped)
    rw [if_pos hshipped] at hperm
    rw [(hwalk hdir).2]
    exact hperm.trans (filesUnder_perm_walk wf (hwalk hdir).1)
  · refine ⟨unpacked, _, Or.inl rfl, hdir, ?_⟩
    have hperm := libraryMetadata_perm wf hdecompiled hraw (Or.inr (hwalk hdir).1)
    rw [if_neg hnone] at hperm
    rw [(hwalk hdir).2]
    exact hperm.trans (filesUnder_perm_walk wf (hwalk hdir).1)

/-- Every version stamp is read from a file of the library metadata. -/
theorem exists_file_of_stamp {stamp : VersionStamp}
    (hstamp : stamp ∈ (PackageMetadata.extract fs (build fs decompiled raw)).versionStamps) :
    ∃ file ∈ (build fs decompiled raw).filesIn .libraryMetadata,
      VersionStamp.ofFile? file.name file.content = some stamp := by
  change stamp ∈ VersionStamp.readFrom fs (build fs decompiled raw).metadata at hstamp
  cases hmetadata : (build fs decompiled raw).metadata with
  | none =>
    rw [hmetadata] at hstamp
    cases hstamp
  | some directory =>
    rw [hmetadata] at hstamp
    obtain ⟨met, hmet, hread⟩ := VersionStamp.exists_file_of_mem_read hstamp
    obtain ⟨root, lead, -, hdir, hperm⟩ :=
      libraryMetadata_perm_walkPath wf hdecompiled hraw hmetadata
    obtain ⟨file, hfile, hwalked⟩ :=
      List.mem_map.mp (hperm.mem_iff.mpr (List.mem_map_of_mem hmet))
    refine ⟨file, hfile, ?_⟩
    have hway := way_ne_nil wf (isDirectory_of_directory? hdir) hmet
    have hname := name_of_mem_filesIn (by decide) hfile
    have hlast : file.way.getLast? = met.way.getLast? := by
      have hways : file.way = lead ++ met.way := congrArg WalkedFile.way hwalked
      rw [hways, List.getLast?_append_of_ne_nil _ hway]
    rw [← hlast, hname, Option.getD_some] at hread
    rwa [show file.content = met.content from congrArg WalkedFile.content hwalked]

end Trees

/-- The areas of two trees. An area with files is there, and its channel is scanned, unless the only
file is one that stands in the place of the area's directory. The library metadata are the files
below the metadata directory, and again such a file where there is none; the version stamps are read
from them. -/
theorem build_presence (fs : FileSystem) (wf : fs.WellFormed) (decompiled raw : PathText)
    (unpacked shipped : Location) (hdecompiled : fs.directory? decompiled = some unpacked)
    (hraw : fs.directory? raw = some shipped) :
    (∀ area, area ≠ .other →
      (build fs decompiled raw).hasArea area = true ∨
        ((build fs decompiled raw).filesIn area).map IndexedFile.walked
          = fs.namesakes unpacked area) ∧
    (∀ limits keyword, ∀ evidence ∈ (scan limits (build fs decompiled raw) keyword).channels,
      evidence.scanned = true ∨
        ((build fs decompiled raw).filesIn evidence.channel.area).map IndexedFile.walked
          = fs.namesakes unpacked evidence.channel.area) ∧
    (∀ directory, (build fs decompiled raw).metadata = some directory →
      ∃ root lead, (root = unpacked ∨ root = shipped) ∧
        fs.directory? directory = some (root ++ lead) ∧
        (((build fs decompiled raw).filesIn .libraryMetadata).map IndexedFile.walked).Perm
          ((fs.walkPath directory).map fun file => { file with way := lead ++ file.way })) ∧
    ((build fs decompiled raw).metadata = none →
      ((build fs decompiled raw).filesIn .libraryMetadata).map IndexedFile.walked
        = fs.namesakes unpacked .libraryMetadata) ∧
    ∀ stamp ∈ (PackageMetadata.extract fs (build fs decompiled raw)).versionStamps,
      ∃ file ∈ (build fs decompiled raw).filesIn .libraryMetadata,
        VersionStamp.ofFile? file.name file.content = some stamp := by
  have habsent (area : TreeArea) (harea : area ≠ .other) :=
    filesIn_of_absent wf hdecompiled hraw harea
  refine ⟨fun area harea => ?_, fun limits keyword evidence hevidence => ?_, fun directory => ?_,
    fun hnone => ?_, fun stamp => ?_⟩
  · exact or_iff_not_imp_left.mpr (habsent area harea)
  · rw [channels_scan] at hevidence
    obtain ⟨channel, -, rfl⟩ := List.mem_map.mp hevidence
    have hchannel : (ChannelEvidence.ofHits channel (Scan.recorded? limits
        (build fs decompiled raw) keyword channel).toList).sorted.channel = channel :=
      ChannelEvidence.channel_ofHits _ _
    rw [Scan.scanned_recorded?, hchannel]
    exact or_iff_not_imp_left.mpr (habsent _ (by cases channel <;> decide))
  · exact libraryMetadata_perm_walkPath wf hdecompiled hraw
  · refine habsent _ (by decide) ?_
    rw [hasArea_build, isPresent]
    change findMetadata fs decompiled raw = none at hnone
    simp [hnone]
  · exact exists_file_of_stamp wf hdecompiled hraw

/-- A decompiled tree with a file in the place of its resources and a kept copy of the metadata, and
a raw tree with a library. -/
def Placed.files : FileSystem :=
  { nodes :=
      [(["d"], .directory), (["d", "AndroidManifest.xml"], .file "<manifest/>".toUTF8 false),
       (["d", "res"], .file "x".toUTF8 false),
       (["d", "original"], .directory), (["d", "original", "META-INF"], .directory),
       (["d", "original", "META-INF", "a.version"], .file "1".toUTF8 false),
       (["r"], .directory), (["r", "lib"], .directory),
       (["r", "lib", "x.so"], .file "x".toUTF8 false)]
    current := []
    temporary := "/" }

theorem Placed.hasArea_libraries :
    (build Placed.files "/d" "/r").hasArea .nativeLibrary = true := by
  rw [hasArea_build]
  decide

theorem Placed.hasArea_resources : (build Placed.files "/d" "/r").hasArea .resource ≠ true := by
  rw [hasArea_build]
  decide

/-- The libraries are there, the resources are not and have the one file in their place, and the
metadata are those that the decompiler kept. -/
theorem build_presence_two_trees :
    Placed.files.WellFormed ∧ Placed.files.directory? "/d" = some ["d"] ∧
    Placed.files.directory? "/r" = some ["r"] ∧
    (build Placed.files "/d" "/r").hasArea .nativeLibrary = true ∧
    (build Placed.files "/d" "/r").hasArea .resource ≠ true ∧
    ((build Placed.files "/d" "/r").filesIn .resource).map IndexedFile.walked
      = [{ way := ["res"], content := "x".toUTF8 }] ∧
    ∃ root lead, Placed.files.directory? "/d/original/META-INF" = some (root ++ lead) ∧
      (((build Placed.files "/d" "/r").filesIn .libraryMetadata).map IndexedFile.walked).Perm
        ((Placed.files.walkPath "/d/original/META-INF").map fun file =>
          { file with way := lead ++ file.way }) := by
  have wf : Placed.files.WellFormed := by decide
  have hdecompiled : Placed.files.directory? "/d" = some ["d"] := by decide
  have hraw : Placed.files.directory? "/r" = some ["r"] := by decide
  obtain ⟨hareas, -, hmetadata, -, -⟩ :=
    build_presence Placed.files wf "/d" "/r" ["d"] ["r"] hdecompiled hraw
  obtain ⟨root, lead, -, hfiles⟩ := hmetadata "/d/original/META-INF" (by decide)
  refine ⟨wf, hdecompiled, hraw, Placed.hasArea_libraries, Placed.hasArea_resources, ?_, root, lead,
    hfiles⟩
  exact ((hareas .resource (by decide)).resolve_left Placed.hasArea_resources).trans (by decide)

/-- A tree with a file in the place of the metadata that a decompiler keeps. -/
def Misplaced.files : FileSystem :=
  { nodes :=
      [(["t"], .directory), (["t", "AndroidManifest.xml"], .file "<manifest/>".toUTF8 false),
       (["t", "original"], .directory),
       (["t", "original", "META-INF"], .file "y".toUTF8 false)]
    current := []
    temporary := "/" }

/-- A file may be told to an area that is not there: the file in the place of the kept metadata is
one of the library metadata, though no directory holds any. -/
theorem file_in_absent_area :
    (build Misplaced.files "/t" "/t").filesIn .libraryMetadata ≠ [] ∧
    (build Misplaced.files "/t" "/t").hasArea .libraryMetadata ≠ true ∧
    (build Misplaced.files "/t" "/t").metadata = none := by
  have wf : Misplaced.files.WellFormed := by decide
  have htree : Misplaced.files.directory? "/t" = some ["t"] := by decide
  have habsent : (build Misplaced.files "/t" "/t").hasArea .libraryMetadata ≠ true := by
    rw [hasArea_build]
    decide
  refine ⟨fun hnone => ?_, habsent, by decide⟩
  have hfiles := filesIn_of_absent wf htree htree (by decide) habsent
  rw [hnone] at hfiles
  revert hfiles
  decide

end PackageIndex
end SdkEvidence
