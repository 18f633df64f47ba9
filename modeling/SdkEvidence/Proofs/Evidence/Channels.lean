import SdkEvidence.Configuration.Basic
import SdkEvidence.Proofs.Evidence.Tally
import SdkEvidence.Proofs.Text.Ending
import SdkEvidence.Proofs.Text.Search
import SdkEvidence.Proofs.Tree.Places

/-!
# Evidence from trees

What the channels of a record say is told by the files that stand at their places in the two trees
(`scan_tallies`): the manifest by its lines, the XML resources by their texts, and the native
libraries, assets and metadata by their names.
-/
namespace SdkEvidence

open FileSystem PackageIndex Scan

/-- The number of lines of a file that contain a keyword in lower case. -/
def linesWith (keyword : String) (content : ByteArray) : Nat :=
  ((Text.lines (Utf8.decodeLossy content).toList).filter fun line =>
    decide (Text.lower keyword.toList <:+: Text.lower line)).length

/-- The files with a keyword in their names in lower case, each with one hit. -/
def namesWith (keyword : String) (files : List WalkedFile) : List (String × Nat) :=
  (files.filter fun file => decide
      (Text.lower keyword.toList <:+: Text.lower ((file.way.getLast?).getD "").toList)).map
    fun file => (file.relative, 1)

/-- How often a keyword stands in a file. -/
def occurrencesIn (keyword : String) (content : ByteArray) : Nat :=
  ({ text := keyword } : Keyword).occurrences (Utf8.decodeLossy content).toList

/-- The files whose paths end with `.xml` in any case, each with the occurrences of a keyword. -/
def occurrencesInXml (keyword : String) (files : List WalkedFile) : List (String × Nat) :=
  (files.filter fun file => decide
      (".xml".toList <:+ file.relative.toList.map Char.toLower)).map
    fun file => (file.relative, occurrencesIn keyword file.content)

/-- The files of the library metadata: those in the raw tree, if it has the directory, else those in
the copy that the decompiler kept. -/
def FileSystem.metadataFiles (fs : FileSystem) (unpacked shipped : Location) : List WalkedFile :=
  if fs.get? (shipped ++ ["META-INF"]) = some .directory then fs.filesUnder shipped ["META-INF"]
  else fs.filesUnder unpacked ["original", "META-INF"]

theorem isIn_eq (keyword : String) (haystack : List Char) :
    ({ text := keyword } : Keyword).isIn haystack
      = decide (Text.lower keyword.toList <:+: Text.lower haystack) := by
  rw [Bool.eq_iff_iff, decide_eq_true_eq]
  exact Text.contains_iff_isInfix

theorem matchingLines_text (keyword : String) (file : IndexedFile) :
    matchingLines { text := keyword } file.text = linesWith keyword file.content := by
  unfold matchingLines linesWith
  rw [List.filter_congr fun line _ => isIn_eq keyword line]
  rfl

theorem byLines_eq (keyword : String) (files : List IndexedFile) :
    byLines { text := keyword } files
      = ChannelHits.none.addFiles ((files.map IndexedFile.walked).map fun file =>
          (file.relative, linesWith keyword file.content)) := by
  unfold byLines
  rw [List.map_map]
  simp only [matchingLines_text]
  rfl

theorem byOccurrences_eq (keyword : String) (files : List IndexedFile) :
    byOccurrences { text := keyword } files
      = ChannelHits.none.addFiles ((files.map IndexedFile.walked).map fun file =>
          (file.relative, occurrencesIn keyword file.content)) := by
  unfold byOccurrences
  rw [List.map_map]
  rfl

theorem byName_eq {keyword : String} {files : List IndexedFile}
    (hnames : ∀ file ∈ files, file.way.getLast? = some file.name) :
    byName { text := keyword } files
      = ChannelHits.none.addFiles (namesWith keyword (files.map IndexedFile.walked)) := by
  unfold byName namesWith
  rw [List.filter_map, List.map_map]
  have hfilter : files.filter (inName { text := keyword })
      = files.filter ((fun file : WalkedFile => decide (Text.lower keyword.toList
          <:+: Text.lower ((file.way.getLast?).getD "").toList)) ∘ IndexedFile.walked) := by
    refine List.filter_congr fun file hfile => ?_
    rw [inName, isIn_eq, Function.comp_apply, IndexedFile.walked, hnames file hfile,
      Option.getD_some]
  rw [hfilter]
  rfl

/-- A file is XML by its path if the path ends so in any case. -/
theorem isXml_eq (file : WalkedFile) :
    TreeArea.isXml file.way
      = decide (".xml".toList <:+ file.relative.toList.map Char.toLower) := by
  rw [Bool.eq_iff_iff, decide_eq_true_eq]
  exact Text.endsWith_lower_iff_toLower (by decide) (by decide) _

theorem namesWith_perm (keyword : String) {files others : List WalkedFile}
    (h : files.Perm others) : (namesWith keyword files).Perm (namesWith keyword others) :=
  (h.filter _).map _

theorem distinct_namesWith (keyword : String) {files : List WalkedFile}
    (h : (files.map WalkedFile.relative).Nodup) :
    ((namesWith keyword files).map Prod.fst).Nodup := by
  unfold namesWith
  rw [List.map_map]
  exact h.sublist (List.filter_sublist.map _)

theorem distinct_occurrencesInXml (keyword : String) {files : List WalkedFile}
    (h : (files.map WalkedFile.relative).Nodup) :
    ((occurrencesInXml keyword files).map Prod.fst).Nodup := by
  unfold occurrencesInXml
  rw [List.map_map]
  exact h.sublist (List.filter_sublist.map _)

section Trees

variable {fs : FileSystem} {decompiled raw : PathText} {unpacked shipped : Location}
  (wf : fs.WellFormed) (hdecompiled : fs.directory? decompiled = some unpacked)
  (hraw : fs.directory? raw = some shipped) (limits : ScanLimits) (keyword : String)

include wf hdecompiled hraw

theorem reads_manifest :
    Reads limits (.build fs decompiled raw) keyword .manifest
      ((fs.contentAt? (unpacked ++ ["AndroidManifest.xml"])).isSome = true)
      ((fs.contentAt? (unpacked ++ ["AndroidManifest.xml"])).toList.map fun content =>
        ("AndroidManifest.xml", linesWith keyword content)) := by
  refine ⟨?_, fun hnone => ?_, fun _ => ⟨_, ?_, byLines_eq keyword _⟩⟩
  · rw [hasArea_build]
    exact isPresent_manifest hdecompiled
  · rw [Option.not_isSome_iff_eq_none.mp hnone]
    rfl
  · refine ((manifest_perm wf hdecompiled hraw).map _).trans (List.Perm.of_eq ?_)
    rw [List.map_map]
    rfl

theorem reads_resourceXml :
    Reads limits (.build fs decompiled raw) keyword .resourceXml
      (fs.get? (unpacked ++ ["res"]) = some .directory)
      (occurrencesInXml keyword (fs.filesUnder unpacked ["res"])) := by
  refine ⟨?_, fun hnone => ?_, fun _ => ⟨_, ?_, byOccurrences_eq keyword _⟩⟩
  · rw [hasArea_build]
    exact isPresent_resourceXml hdecompiled
  · rw [filesUnder_eq_nil wf hnone]
    rfl
  · refine ((resourceXml_perm wf hdecompiled hraw).map _).trans (List.Perm.of_eq ?_)
    unfold occurrencesInXml
    rw [List.filter_congr fun file _ => isXml_eq file]
    rfl

omit wf hdecompiled hraw in
/-- A channel that goes by file names reads the files of its area. -/
theorem reads_byName {channel : EvidenceChannel} {there : Prop} {files : List WalkedFile}
    (hchannel : ∀ listed, hits limits { text := keyword } listed channel
      = byName { text := keyword } listed)
    (hthere : isPresent fs decompiled raw channel.area = true ↔ there)
    (habsent : ¬there → files = [])
    (hfiles : there → (((build fs decompiled raw).filesIn channel.area).map
      IndexedFile.walked).Perm files) :
    Reads limits (.build fs decompiled raw) keyword channel there (namesWith keyword files) := by
  have harea : channel.area ≠ .other := by cases channel <;> decide
  refine ⟨?_, fun hnone => ?_, fun h => ⟨_, namesWith_perm keyword (hfiles h), ?_⟩⟩
  · rw [hasArea_build, hthere]
  · rw [habsent hnone]
    rfl
  · rw [hchannel]
    exact byName_eq fun file => name_of_mem_filesIn harea

theorem reads_shipped {channel : EvidenceChannel} {directory : String}
    (hchannel : ∀ listed, hits limits { text := keyword } listed channel
      = byName { text := keyword } listed)
    (hplace : channel.area.rawDirectory? = some directory)
    (hmetadata : channel.area ≠ .libraryMetadata) :
    Reads limits (.build fs decompiled raw) keyword channel
      (fs.get? (shipped ++ [directory]) = some .directory)
      (namesWith keyword (fs.filesUnder shipped [directory])) :=
  reads_byName limits keyword hchannel
    (isPresent_shipped hraw hplace hmetadata) (filesUnder_eq_nil wf)
    fun _ => shipped_perm wf hdecompiled hraw hplace hmetadata

theorem reads_libraryMetadata :
    Reads limits (.build fs decompiled raw) keyword .libraryMetadata
      (fs.get? (shipped ++ ["META-INF"]) = some .directory ∨
        fs.get? (unpacked ++ ["original", "META-INF"]) = some .directory)
      (namesWith keyword (fs.metadataFiles unpacked shipped)) := by
  refine reads_byName limits keyword (fun _ => rfl)
    (isPresent_libraryMetadata wf hdecompiled hraw) (fun hnone => ?_)
    fun hthere => libraryMetadata_perm wf hdecompiled hraw hthere
  obtain ⟨hshipped, hkept⟩ := not_or.mp hnone
  rw [metadataFiles, if_neg hshipped, filesUnder_eq_nil wf hkept]

end Trees

/-- The record of a keyword in two trees: the channels of the manifest, the resources, the native
libraries, the assets and the metadata tell of the files at their places in the trees, and every
channel tells whether its place is there. -/
theorem scan_tallies (fs : FileSystem) (wf : fs.WellFormed) (decompiled raw : PathText)
    (unpacked shipped : Location) (hdecompiled : fs.directory? decompiled = some unpacked)
    (hraw : fs.directory? raw = some shipped) (c : Configuration) (keyword : String) :
    ∃ manifest resources code libraries assets metadata,
      (scan c.limits (.build fs decompiled raw) keyword).channels
        = [manifest, resources, code, libraries, assets, metadata] ∧
      manifest.Tallies .manifest
        ((fs.contentAt? (unpacked ++ ["AndroidManifest.xml"])).isSome = true)
        ((fs.contentAt? (unpacked ++ ["AndroidManifest.xml"])).toList.map fun content =>
          ("AndroidManifest.xml", linesWith keyword content)) ∧
      resources.Tallies .resourceXml (fs.get? (unpacked ++ ["res"]) = some .directory)
        (occurrencesInXml keyword (fs.filesUnder unpacked ["res"])) ∧
      code.channel = .code ∧
      (code.scanned = true ↔ ∃ name, ("smali".toList <+: name.toList ∨ name = "sources") ∧
        fs.get? (unpacked ++ [name]) = some .directory) ∧
      libraries.Tallies .nativeLibraryName (fs.get? (shipped ++ ["lib"]) = some .directory)
        (namesWith keyword (fs.filesUnder shipped ["lib"])) ∧
      assets.Tallies .assets (fs.get? (shipped ++ ["assets"]) = some .directory)
        (namesWith keyword (fs.filesUnder shipped ["assets"])) ∧
      metadata.Tallies .libraryMetadata
        (fs.get? (shipped ++ ["META-INF"]) = some .directory ∨
          fs.get? (unpacked ++ ["original", "META-INF"]) = some .directory)
        (namesWith keyword (fs.metadataFiles unpacked shipped)) := by
  refine ⟨_, _, _, _, _, _, channels_scan _ _ _, ?_, ?_, ?_, ?_, ?_, ?_, ?_⟩
  · refine (reads_manifest wf hdecompiled hraw c.limits keyword).tallies ?_
    cases fs.contentAt? (unpacked ++ ["AndroidManifest.xml"]) <;> simp
  · exact (reads_resourceXml wf hdecompiled hraw c.limits keyword).tallies
      (distinct_occurrencesInXml keyword (relatives_nodup wf _ _))
  · exact ChannelEvidence.channel_ofHits _ _
  · rw [scanned_recorded?, hasArea_build]
    refine (isPresent_code wf hdecompiled).trans ?_
    refine exists_congr fun name => and_congr_left fun _ => ?_
    simp [TreeArea.isCodeRoot]
  · exact (reads_shipped wf hdecompiled hraw c.limits keyword (fun _ => rfl) rfl
      (by decide)).tallies (distinct_namesWith keyword (relatives_nodup wf _ _))
  · exact (reads_shipped wf hdecompiled hraw c.limits keyword (fun _ => rfl) rfl
      (by decide)).tallies (distinct_namesWith keyword (relatives_nodup wf _ _))
  · refine (reads_libraryMetadata wf hdecompiled hraw c.limits keyword).tallies
      (distinct_namesWith keyword ?_)
    unfold metadataFiles
    split <;> exact relatives_nodup wf _ _

/-- A decompiled tree and a raw tree, with a name in several places and two spellings. -/
def TwoTrees.files : FileSystem :=
  { nodes :=
      [(["d"], .directory),
       (["d", "AndroidManifest.xml"],
         .file "<a n=\"Foo\"/>\r\n<b/>\n<c n=\"foo foo\"/>".toUTF8 false),
       (["d", "res"], .directory), (["d", "res", "s.XML"], .file "foo FOO".toUTF8 false),
       (["d", "res", "foo.png"], .file "foo".toUTF8 false),
       (["d", "smali_classes2"], .directory),
       (["d", "original"], .directory), (["d", "original", "META-INF"], .directory),
       (["d", "original", "META-INF", "foo.version"], .file "1".toUTF8 false),
       (["r"], .directory), (["r", "lib"], .directory), (["r", "lib", "x86"], .directory),
       (["r", "lib", "x86", "libFoo.so"], .file "x".toUTF8 false),
       (["r", "lib", "x86", "libbar.so"], .file "foo".toUTF8 false)]
    current := []
    temporary := "/" }

/-- The name is found in two lines, twice in a resource, in the name of one library and in that of a
file of the kept metadata; there are no assets. -/
theorem scan_tallies_two_trees :
    TwoTrees.files.WellFormed ∧ TwoTrees.files.directory? "/d" = some ["d"] ∧
    TwoTrees.files.directory? "/r" = some ["r"] ∧
    ∃ manifest resources code libraries assets metadata,
      (scan Configuration.default.limits (.build TwoTrees.files "/d" "/r") "Foo").channels
        = [manifest, resources, code, libraries, assets, metadata] ∧
      manifest.count = 2 ∧ resources.count = 2 ∧ code.scanned = true ∧ libraries.count = 1 ∧
      assets.scanned ≠ true ∧ metadata.count = 1 := by
  have wf : TwoTrees.files.WellFormed := by decide
  have hdecompiled : TwoTrees.files.directory? "/d" = some ["d"] := by decide
  have hraw : TwoTrees.files.directory? "/r" = some ["r"] := by decide
  obtain ⟨manifest, resources, code, libraries, assets, metadata, hchannels, hmanifest, hresources,
    -, hcode, hlibraries, hassets, hmetadata⟩ :=
    scan_tallies TwoTrees.files wf "/d" "/r" ["d"] ["r"] hdecompiled hraw .default "Foo"
  refine ⟨wf, hdecompiled, hraw, manifest, resources, code, libraries, assets, metadata, hchannels,
    ?_, ?_, ?_, ?_, ?_, ?_⟩
  · exact hmanifest.count.trans (by decide +kernel)
  · exact hresources.count.trans (by decide +kernel)
  · exact hcode.mpr ⟨"smali_classes2", Or.inl (by decide), by decide⟩
  · exact hlibraries.count.trans (by decide +kernel)
  · exact hassets.scanned.not.mpr (by decide)
  · exact hmetadata.count.trans (by decide +kernel)

end SdkEvidence
