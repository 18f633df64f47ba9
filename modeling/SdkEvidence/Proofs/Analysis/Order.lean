import SdkEvidence.Proofs.Analysis.Container
import SdkEvidence.Proofs.FileSystem.SameAt

/-!
# The order of directory entries

Directories are read for code roots, for locales, for module files, and by every walk. All of these
forget the order in which a directory returns its entries, so file systems that hold the same trees
at two paths have the same index there (`build_congr`), the same findings (`ofTrees_congr`), and the
same report or failure (`analyzeTrees_congr`).
-/
namespace SdkEvidence

open FileSystem

variable {fs₁ fs₂ : FileSystem} {decompiled raw : PathText}

namespace PackageIndex

/-- The directory of the library metadata is found at the same path, and is the same there. -/
theorem findMetadata_congr (hdecompiled : HoldSame fs₁ fs₂ decompiled)
    (hraw : HoldSame fs₁ fs₂ raw) :
    findMetadata fs₂ decompiled raw = findMetadata fs₁ decompiled raw ∧
      ∀ directory ∈ findMetadata fs₁ decompiled raw,
        SameAt fs₁ fs₂ directory ∧ directory ≠ "" := by
  have hshipped := hraw.join (q := TreeArea.metadataDirectory) (by decide) (by decide)
  have hkept := (hdecompiled.join (q := TreeArea.keptDirectory) (by decide) (by decide)).join
    (q := TreeArea.metadataDirectory) (Path.join_ne_empty (by decide)) (by decide)
  unfold findMetadata
  dsimp only
  rw [hshipped.isDirectory, hkept.isDirectory]
  refine ⟨rfl, fun directory hdirectory => ?_⟩
  split at hdirectory
  · cases hdirectory
    exact ⟨hshipped, Path.join_ne_empty (by decide)⟩
  · split at hdirectory
    · cases hdirectory
      exact ⟨hkept, Path.join_ne_empty (by decide)⟩
    · cases hdirectory

/-- The names of the code roots are sorted. -/
theorem findCodeRoots_congr (hdecompiled : HoldSame fs₁ fs₂ decompiled) (wf₁ : fs₁.WellFormed)
    (wf₂ : fs₂.WellFormed) : findCodeRoots fs₂ decompiled = findCodeRoots fs₁ decompiled := by
  have hentries := hdecompiled.here.entriesAt wf₁ wf₂
  unfold findCodeRoots
  dsimp only
  rw [sorted_congr (hentries.filterMap _)]

/-- Trees that are the same have the same index. -/
theorem build_congr (hdecompiled : HoldSame fs₁ fs₂ decompiled) (hraw : HoldSame fs₁ fs₂ raw)
    (wf₁ : fs₁.WellFormed) (wf₂ : fs₂.WellFormed) :
    build fs₂ decompiled raw = build fs₁ decompiled raw := by
  have hroots := findCodeRoots_congr hdecompiled wf₁ wf₂
  have hmetadata := (findMetadata_congr hdecompiled hraw).1
  have hpresent : isPresent fs₂ decompiled raw = isPresent fs₁ decompiled raw := by
    funext area
    cases area with
    | manifest => exact (hdecompiled.join (by decide) (by decide)).isFile
    | resourceXml | resource => exact (hdecompiled.join (by decide) (by decide)).isDirectory
    | code => rw [isPresent, isPresent, hroots]
    | nativeLibrary | asset => exact (hraw.join (by decide) (by decide)).isDirectory
    | libraryMetadata => rw [isPresent, isPresent, hmetadata]
    | other => rfl
  unfold build treeFiles
  rw [hpresent, hroots, hmetadata, hdecompiled.here.walkPath wf₁ wf₂, hraw.here.walkPath wf₁ wf₂,
    (hraw.join (q := TreeArea.metadataDirectory) (by decide) (by decide)).isDirectory]

end PackageIndex

namespace PackageMetadata

open PackageIndex

theorem manifestInfo_congr (hdecompiled : HoldSame fs₁ fs₂ decompiled) :
    manifestInfo fs₂ (build fs₁ decompiled raw) = manifestInfo fs₁ (build fs₁ decompiled raw) := by
  have hresources := hdecompiled.join (q := TreeArea.resourceDirectory) (by decide) (by decide)
  have hvalues := hresources.join (q := "values") (Path.join_ne_empty (by decide)) (by decide)
  have hstrings := hvalues.join (q := "strings.xml") (Path.join_ne_empty (by decide)) (by decide)
  have hbuild : (build fs₁ decompiled raw).decompiled = decompiled := rfl
  unfold manifestInfo stringsFile manifestPath
  dsimp only
  rw [hbuild, (hdecompiled.join (by decide) (by decide)).readText?, hstrings.readText?,
    (hdecompiled.join (by decide) (by decide)).readText?]

/-- What a directory of library metadata is read for. -/
theorem stamps_congr {metadata : Option PathText}
    (hmetadata : ∀ directory ∈ metadata, SameAt fs₁ fs₂ directory ∧ directory ≠ "")
    (wf₁ : fs₁.WellFormed) (wf₂ : fs₂.WellFormed) :
    VersionStamp.readFrom fs₂ metadata = VersionStamp.readFrom fs₁ metadata := by
  cases metadata with
  | none => rfl
  | some directory =>
    obtain ⟨hsame, -⟩ := hmetadata directory rfl
    simp only [VersionStamp.readFrom, VersionStamp.read, Option.map_some, hsame.walkPath wf₁ wf₂]

theorem tooling_congr (hraw : HoldSame fs₁ fs₂ raw) :
    Tooling.read? fs₂ raw = Tooling.read? fs₁ raw := by
  unfold Tooling.read?
  rw [(hraw.join (by decide) (by decide)).readText?]

theorem provenance_congr {metadata : Option PathText} (hraw : HoldSame fs₁ fs₂ raw)
    (hmetadata : ∀ directory ∈ metadata, SameAt fs₁ fs₂ directory ∧ directory ≠ "")
    (base : Dictionary String) :
    Provenance.collect fs₂ raw metadata base = Provenance.collect fs₁ raw metadata base := by
  have hsection : (metadata.bind fun directory =>
        fs₂.readText? (Path.join directory Provenance.sectionFile))
      = metadata.bind fun directory =>
        fs₁.readText? (Path.join directory Provenance.sectionFile) := by
    cases metadata with
    | none => rfl
    | some directory =>
      obtain ⟨hsame, hne⟩ := hmetadata directory rfl
      exact (hsame.join hne (by decide)).readText?
  unfold Provenance.collect
  rw [tooling_congr hraw, hsection]

/-- A module file counts wherever it is listed. -/
theorem kotlin_congr {metadata : Option PathText} (hraw : HoldSame fs₁ fs₂ raw)
    (hmetadata : ∀ directory ∈ metadata, SameAt fs₁ fs₂ directory ∧ directory ≠ "")
    (wf₁ : fs₁.WellFormed) (wf₂ : fs₂.WellFormed) (stamps : List VersionStamp) :
    KotlinRuntime.detect fs₂ raw metadata stamps
      = KotlinRuntime.detect fs₁ raw metadata stamps := by
  have hmodule : metadata.any (KotlinRuntime.hasModuleFile fs₂)
      = metadata.any (KotlinRuntime.hasModuleFile fs₁) := by
    cases metadata with
    | none => rfl
    | some directory =>
      obtain ⟨hsame, -⟩ := hmetadata directory rfl
      exact (hsame.entriesAt wf₁ wf₂).any_eq
  unfold KotlinRuntime.detect Tooling.pluginVersion?
  rw [tooling_congr hraw, hmodule, (hraw.join (by decide) (by decide)).isDirectory]

/-- Locales are sorted, and each is told once. -/
theorem locales_congr (hdecompiled : HoldSame fs₁ fs₂ decompiled) (wf₁ : fs₁.WellFormed)
    (wf₂ : fs₂.WellFormed) : Locale.collect fs₂ decompiled = Locale.collect fs₁ decompiled := by
  have hentries := (hdecompiled.join (q := TreeArea.resourceDirectory) (by decide)
    (by decide)).entriesAt wf₁ wf₂
  exact sortedDistinct_congr (hentries.filterMap _)

theorem extract_congr (hdecompiled : HoldSame fs₁ fs₂ decompiled) (hraw : HoldSame fs₁ fs₂ raw)
    (wf₁ : fs₁.WellFormed) (wf₂ : fs₂.WellFormed) :
    extract fs₂ (build fs₁ decompiled raw) = extract fs₁ (build fs₁ decompiled raw) := by
  have hmetadata := (findMetadata_congr hdecompiled hraw).2
  have hparts : (build fs₁ decompiled raw).decompiled = decompiled ∧
      (build fs₁ decompiled raw).raw = raw ∧
      (build fs₁ decompiled raw).metadata = findMetadata fs₁ decompiled raw := ⟨rfl, rfl, rfl⟩
  unfold extract
  dsimp only
  rw [hparts.1, hparts.2.1, hparts.2.2, manifestInfo_congr hdecompiled,
    stamps_congr hmetadata wf₁ wf₂, provenance_congr hraw hmetadata,
    kotlin_congr hraw hmetadata wf₁ wf₂, locales_congr hdecompiled wf₁ wf₂]

end PackageMetadata

/-- Trees that are the same show the same. -/
theorem Findings.ofTrees_congr (c : Configuration) (mode : Mode)
    (hdecompiled : HoldSame fs₁ fs₂ decompiled) (hraw : HoldSame fs₁ fs₂ raw)
    (wf₁ : fs₁.WellFormed) (wf₂ : fs₂.WellFormed) (hdatabase : database fs₂ c = database fs₁ c)
    (hcompetitors : competitors fs₂ c = competitors fs₁ c) :
    ofTrees fs₂ c mode decompiled raw = ofTrees fs₁ c mode decompiled raw := by
  unfold ofTrees ofIndex
  rw [PackageIndex.build_congr hdecompiled hraw wf₁ wf₂, hdatabase, hcompetitors,
    PackageMetadata.extract_congr hdecompiled hraw wf₁ wf₂]

namespace Analyzer

/-- Settings whose files have the same texts are the same. -/
theorem settings_of_texts {c : Configuration}
    (h : ∀ p ∈ settingsFiles c, fs₂.readText? p = fs₁.readText? p) :
    Findings.database fs₂ c = Findings.database fs₁ c ∧
      Findings.competitors fs₂ c = Findings.competitors fs₁ c := by
  unfold settingsFiles at h
  constructor
  · unfold Findings.database
    cases hpath : c.libraryDatabase with
    | none => rfl
    | some p => rw [Option.bind_some, Option.bind_some, h p (by simp [hpath])]
  · unfold Findings.competitors
    cases hpath : c.competitorList with
    | none => rfl
    | some p => rw [Option.bind_some, Option.bind_some, h p (by simp [hpath])]

/-- File systems that hold the same trees at two paths give the same report on them, or fail alike,
in whatever order their directories return their entries. Only the date of the report is that of its
run. -/
theorem analyzeTrees_congr (a : Analyzer) (later : Timestamp) (mode : Mode)
    (decompiled raw : PathText) (fs₁ fs₂ : FileSystem) (wf₁ : fs₁.WellFormed)
    (wf₂ : fs₂.WellFormed) (hdecompiled : HoldSame fs₁ fs₂ decompiled)
    (hraw : HoldSame fs₁ fs₂ raw)
    (hsettings : ∀ p ∈ settingsFiles a.configuration, fs₂.readText? p = fs₁.readText? p) :
    (({ a with moment := later }.analyzeTrees mode decompiled raw).runIn fs₂).1
      = (((a.analyzeTrees mode decompiled raw).runIn fs₁).1).map fun report =>
          { report with generatedAt := later } := by
  obtain ⟨hdatabase, hcompetitors⟩ := settings_of_texts hsettings
  have hfindings := Findings.ofTrees_congr a.configuration mode hdecompiled hraw wf₁ wf₂ hdatabase
    hcompetitors
  unfold analyzeTrees
  rw [Action.runIn_bind, Action.runIn_bind, runIn_examine, runIn_examine,
    hdecompiled.here.isDirectory]
  cases fs₁.isDirectory decompiled with
  | false => rfl
  | true =>
    simp only [if_true, Action.runIn_pure, hfindings]
    rfl

end Analyzer

/-- A package whose directories return their entries in one order. -/
def Ordered.files : FileSystem :=
  { nodes :=
      [(["d"], .directory), (["d", "AndroidManifest.xml"], .file "<manifest/>".toUTF8 false),
       (["d", "smali"], .directory), (["d", "smali", "A.smali"], .file "vendor".toUTF8 false),
       (["d", "smali_classes2"], .directory),
       (["d", "smali_classes2", "B.smali"], .file "vendor".toUTF8 false),
       (["d", "res"], .directory), (["d", "res", "values-fr"], .directory),
       (["d", "res", "values-de"], .directory),
       (["r"], .directory), (["r", "META-INF"], .directory),
       (["r", "META-INF", "b.version"], .file "2".toUTF8 false),
       (["r", "META-INF", "a.version"], .file "1".toUTF8 false)]
    current := []
    temporary := "/" }

/-- The same package, whose directories return their entries the other way round. -/
def Ordered.reversed : FileSystem :=
  { Ordered.files with nodes := Ordered.files.nodes.reverse }

theorem Analyzer.analyzeTrees_congr_reversed :
    Ordered.files.WellFormed ∧ Ordered.reversed.WellFormed ∧
      HoldSame Ordered.files Ordered.reversed "/d" ∧ HoldSame Ordered.files Ordered.reversed "/r" ∧
      (((ofConfiguration .default Copied.evening).analyzeTrees (.detection ["vendor"]) "/d"
          "/r").runIn Ordered.reversed).1
        = ((((ofConfiguration .default Copied.noon).analyzeTrees (.detection ["vendor"]) "/d"
            "/r").runIn Ordered.files).1).map fun report =>
            { report with generatedAt := Copied.evening } := by
  have wf₁ : Ordered.files.WellFormed := by decide
  have wf₂ : Ordered.reversed.WellFormed := by decide
  have hsame (p : PathText) : HoldSame Ordered.files Ordered.reversed p :=
    holdSame_of_perm wf₁ wf₂ (List.reverse_perm _) rfl p
  exact ⟨wf₁, wf₂, hsame _, hsame _,
    analyzeTrees_congr (ofConfiguration .default Copied.noon) Copied.evening (.detection ["vendor"])
      "/d" "/r" Ordered.files Ordered.reversed wf₁ wf₂ (hsame _) (hsame _)
      (by simp [settingsFiles, ofConfiguration, Configuration.default])⟩

end SdkEvidence
