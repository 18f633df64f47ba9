import SdkEvidence.Analysis.Findings
import SdkEvidence.Proofs.Tree.Areas

/-!
# Findings depend on the trees only

Two packages whose decompiled trees are the same below their tops, and whose raw trees are, show the
same metadata, libraries and evidence (`TwinPackages.ofTrees`), wherever the trees stand, in
whatever order directories return their entries, and whether or not one tree is both.
-/
namespace SdkEvidence

open FileSystem

/-- Two packages with the same trees, each in its file system. Where two paths count as one tree,
they lead to the same files. -/
structure TwinPackages (fs₁ : FileSystem) (decompiled₁ raw₁ : PathText) (fs₂ : FileSystem)
    (decompiled₂ raw₂ : PathText) : Prop where
  wellFormed₁ : fs₁.WellFormed
  wellFormed₂ : fs₂.WellFormed
  decompiled : Twins fs₁ decompiled₁ fs₂ decompiled₂
  raw : Twins fs₁ raw₁ fs₂ raw₂
  one₁ : Path.same decompiled₁ raw₁ = true → fs₁.walkPath raw₁ = fs₁.walkPath decompiled₁
  one₂ : Path.same decompiled₂ raw₂ = true → fs₂.walkPath raw₂ = fs₂.walkPath decompiled₂

/-- Sorting forgets the order in which texts come. -/
theorem sorted_congr {texts others : List String} (h : texts.Perm others) :
    (texts.mergeSort fun a b => decide (a ≤ b)) = others.mergeSort fun a b => decide (a ≤ b) := by
  have hsorted (l : List String) : (l.mergeSort fun a b => decide (a ≤ b)).Pairwise (· ≤ ·) :=
    List.pairwise_mergeSort' (· ≤ ·) l
  have hperm : (texts.mergeSort fun a b => decide (a ≤ b)).Perm
      (others.mergeSort fun a b => decide (a ≤ b)) :=
    (List.mergeSort_perm texts _).trans (h.trans (List.mergeSort_perm others _).symm)
  exact hperm.eq_of_pairwise' (hsorted texts) (hsorted others)

theorem sortedDistinct_congr {texts others : List String} (h : texts.Perm others) :
    sortedDistinct texts = sortedDistinct others := by
  rw [sortedDistinct, sortedDistinct, sorted_congr h]

namespace TwinPackages

variable {fs₁ fs₂ : FileSystem} {decompiled₁ raw₁ decompiled₂ raw₂ : PathText}

open PackageIndex

theorem filesIn (h : TwinPackages fs₁ decompiled₁ raw₁ fs₂ decompiled₂ raw₂) {area : TreeArea}
    (harea : area ≠ .other) :
    (build fs₂ decompiled₂ raw₂).filesIn area = (build fs₁ decompiled₁ raw₁).filesIn area := by
  have hways (file : WalkedFile) (hfile : file ∈ fs₁.walkPath decompiled₁) :=
    way_ne_nil h.wellFormed₁ h.decompiled.first hfile
  have hways' (file : WalkedFile) (hfile : file ∈ fs₁.walkPath raw₁) :=
    way_ne_nil h.wellFormed₁ h.raw.first hfile
  rw [filesIn_build h.wellFormed₁ h.decompiled.first h.raw.first h.one₁ harea,
    filesIn_build h.wellFormed₂ h.decompiled.second h.raw.second h.one₂ harea,
    h.raw.isDirectory (by decide)]
  simp only [List.filter_append, filter_treeFiles, h.raw.walkPath h.wellFormed₁ h.wellFormed₂,
    h.decompiled.walkPath h.wellFormed₁ h.wellFormed₂]
  rw [indexed_filter_congr hways fun _ _ => Iff.rfl, indexed_filter_congr hways' fun _ _ => Iff.rfl]

/-- The directory of the library metadata stands at the same place of the same tree. -/
theorem findMetadata (h : TwinPackages fs₁ decompiled₁ raw₁ fs₂ decompiled₂ raw₂) :
    Option.Rel (fun p₁ p₂ => Twins fs₁ p₁ fs₂ p₂) (findMetadata fs₁ decompiled₁ raw₁)
      (findMetadata fs₂ decompiled₂ raw₂) := by
  have hkept (p : PathText) :
      Path.join (Path.join p TreeArea.keptDirectory) TreeArea.metadataDirectory
        = Path.join p (Path.join TreeArea.keptDirectory TreeArea.metadataDirectory) :=
    Path.join_join (by decide) (by decide) (by decide) (by decide)
  unfold PackageIndex.findMetadata
  simp only [hkept]
  rw [h.raw.isDirectory (by decide), h.decompiled.isDirectory (by decide)]
  split
  next hshipped => exact .some (h.raw.below (by decide) hshipped)
  next =>
    split
    next hthere => exact .some (h.decompiled.below (by decide) hthere)
    next => exact .none

theorem present (h : TwinPackages fs₁ decompiled₁ raw₁ fs₂ decompiled₂ raw₂) :
    (build fs₂ decompiled₂ raw₂).present = (build fs₁ decompiled₁ raw₁).present := by
  have hpresent (area : TreeArea) :
      isPresent fs₂ decompiled₂ raw₂ area = isPresent fs₁ decompiled₁ raw₁ area := by
    cases area with
    | manifest => exact h.decompiled.isFile (by decide)
    | resourceXml | resource => exact h.decompiled.isDirectory (by decide)
    | code =>
      have hperm := h.decompiled.entriesAt h.wellFormed₁ h.wellFormed₂
      have hlength : (findCodeRoots fs₂ decompiled₂).length
          = (findCodeRoots fs₁ decompiled₁).length := by
        simpa [findCodeRoots] using (hperm.filterMap _).length_eq
      rw [Bool.eq_iff_iff]
      simp [isPresent, ← List.length_eq_zero_iff, hlength]
    | nativeLibrary | asset => exact h.raw.isDirectory (by decide)
    | libraryMetadata =>
      have hmetadata := h.findMetadata
      unfold isPresent
      generalize PackageIndex.findMetadata fs₁ decompiled₁ raw₁ = found₁ at hmetadata ⊢
      generalize PackageIndex.findMetadata fs₂ decompiled₂ raw₂ = found₂ at hmetadata ⊢
      cases hmetadata <;> rfl
    | other => rfl
  unfold build
  dsimp only
  rw [funext hpresent]

/-- Stamps are read from the files directly in the directory, whatever its path is. -/
theorem stamps (h : TwinPackages fs₁ decompiled₁ raw₁ fs₂ decompiled₂ raw₂) :
    VersionStamp.readFrom fs₂ (PackageIndex.findMetadata fs₂ decompiled₂ raw₂)
      = VersionStamp.readFrom fs₁ (PackageIndex.findMetadata fs₁ decompiled₁ raw₁) := by
  have hmetadata := h.findMetadata
  generalize PackageIndex.findMetadata fs₁ decompiled₁ raw₁ = found₁ at hmetadata ⊢
  generalize PackageIndex.findMetadata fs₂ decompiled₂ raw₂ = found₂ at hmetadata ⊢
  cases hmetadata with
  | none => rfl
  | some htwins =>
    simp only [VersionStamp.readFrom, VersionStamp.read, Option.map_some, Option.getD_some,
      htwins.walkPath h.wellFormed₁ h.wellFormed₂]
    congr 2
    refine List.filterMap_congr fun file hfile => ?_
    have hway := way_ne_nil h.wellFormed₁ htwins.first (List.mem_filter.mp hfile).1
    rw [List.getLast?_eq_some_getLast hway, Option.getD_some, Option.getD_some]

theorem tooling (h : TwinPackages fs₁ decompiled₁ raw₁ fs₂ decompiled₂ raw₂) :
    Tooling.read? fs₂ raw₂ = Tooling.read? fs₁ raw₁ := by
  unfold Tooling.read?
  rw [h.raw.readText? (by decide)]

theorem provenance (h : TwinPackages fs₁ decompiled₁ raw₁ fs₂ decompiled₂ raw₂)
    (base : Dictionary String) :
    Provenance.collect fs₂ raw₂ (PackageIndex.findMetadata fs₂ decompiled₂ raw₂) base
      = Provenance.collect fs₁ raw₁ (PackageIndex.findMetadata fs₁ decompiled₁ raw₁) base := by
  unfold Provenance.collect
  rw [h.tooling]
  have hmetadata := h.findMetadata
  generalize PackageIndex.findMetadata fs₁ decompiled₁ raw₁ = found₁ at hmetadata ⊢
  generalize PackageIndex.findMetadata fs₂ decompiled₂ raw₂ = found₂ at hmetadata ⊢
  cases hmetadata with
  | none => rfl
  | some htwins =>
    simp only [Option.bind_some, htwins.readText? (q := Provenance.sectionFile) (by decide)]

theorem kotlin (h : TwinPackages fs₁ decompiled₁ raw₁ fs₂ decompiled₂ raw₂)
    (stamps : List VersionStamp) :
    KotlinRuntime.detect fs₂ raw₂ (PackageIndex.findMetadata fs₂ decompiled₂ raw₂) stamps
      = KotlinRuntime.detect fs₁ raw₁ (PackageIndex.findMetadata fs₁ decompiled₁ raw₁) stamps := by
  have hmodule :
      (PackageIndex.findMetadata fs₂ decompiled₂ raw₂).any (KotlinRuntime.hasModuleFile fs₂)
      = (PackageIndex.findMetadata fs₁ decompiled₁ raw₁).any (KotlinRuntime.hasModuleFile fs₁) := by
    have hmetadata := h.findMetadata
    generalize PackageIndex.findMetadata fs₁ decompiled₁ raw₁ = found₁ at hmetadata ⊢
    generalize PackageIndex.findMetadata fs₂ decompiled₂ raw₂ = found₂ at hmetadata ⊢
    cases hmetadata with
    | none => rfl
    | some htwins => exact (htwins.entriesAt h.wellFormed₁ h.wellFormed₂).any_eq
  unfold KotlinRuntime.detect Tooling.pluginVersion?
  rw [h.tooling, hmodule, h.raw.isDirectory (by decide)]

theorem locales (h : TwinPackages fs₁ decompiled₁ raw₁ fs₂ decompiled₂ raw₂) :
    Locale.collect fs₂ decompiled₂ = Locale.collect fs₁ decompiled₁ :=
  sortedDistinct_congr
    ((h.decompiled.entriesAt_join h.wellFormed₁ h.wellFormed₂ (by decide)).filterMap _)

theorem manifestInfo (h : TwinPackages fs₁ decompiled₁ raw₁ fs₂ decompiled₂ raw₂) :
    PackageMetadata.manifestInfo fs₂ (build fs₂ decompiled₂ raw₂)
      = PackageMetadata.manifestInfo fs₁ (build fs₁ decompiled₁ raw₁) := by
  have hstrings (p : PathText) :
      PackageMetadata.stringsFile (Path.join p TreeArea.resourceDirectory)
        = Path.join p
            (Path.join TreeArea.resourceDirectory (Path.join "values" "strings.xml")) := by
    unfold PackageMetadata.stringsFile
    rw [Path.join_join (by decide) (by decide) (by decide) (by decide),
      Path.join_join (by decide) (by decide) (by decide) (by decide)]
  unfold PackageMetadata.manifestInfo
  simp only [build, manifestPath, hstrings]
  rw [h.decompiled.readText? (by decide), h.decompiled.readText? (by decide),
    h.decompiled.readText? (by decide)]

theorem metadata (h : TwinPackages fs₁ decompiled₁ raw₁ fs₂ decompiled₂ raw₂) :
    PackageMetadata.extract fs₂ (build fs₂ decompiled₂ raw₂)
      = PackageMetadata.extract fs₁ (build fs₁ decompiled₁ raw₁) := by
  have hbuild (fs : FileSystem) (decompiled raw : PathText) :
      (build fs decompiled raw).metadata = PackageIndex.findMetadata fs decompiled raw ∧
        (build fs decompiled raw).raw = raw ∧ (build fs decompiled raw).decompiled = decompiled :=
    ⟨rfl, rfl, rfl⟩
  unfold PackageMetadata.extract CodePackage.collect
  simp only [hbuild, h.manifestInfo, h.stamps, h.provenance, h.kotlin, h.locales]
  rw [h.filesIn (show TreeArea.asset ≠ .other by decide),
    h.filesIn (show TreeArea.resourceXml ≠ .other by decide),
    h.filesIn (show TreeArea.resource ≠ .other by decide),
    h.filesIn (show TreeArea.code ≠ .other by decide)]

theorem libraries (h : TwinPackages fs₁ decompiled₁ raw₁ fs₂ decompiled₂ raw₂)
    (database : LibraryDatabase) :
    NativeLibrary.collect database (build fs₂ decompiled₂ raw₂)
      = NativeLibrary.collect database (build fs₁ decompiled₁ raw₁) := by
  unfold NativeLibrary.collect
  rw [h.filesIn (by decide)]

/-- A keyword has the same evidence. -/
theorem scan (h : TwinPackages fs₁ decompiled₁ raw₁ fs₂ decompiled₂ raw₂) (limits : ScanLimits)
    (keyword : String) :
    SdkEvidence.scan limits (build fs₂ decompiled₂ raw₂) keyword
      = SdkEvidence.scan limits (build fs₁ decompiled₁ raw₁) keyword := by
  have hchannel (draft : EvidenceDraft) (channel : EvidenceChannel) :
      Scan.scanChannel limits (build fs₂ decompiled₂ raw₂) draft channel
        = Scan.scanChannel limits (build fs₁ decompiled₁ raw₁) draft channel := by
    have harea : channel.area ≠ .other := by cases channel <;> decide
    unfold Scan.scanChannel hasArea
    rw [h.present, h.filesIn harea]
  have hstep : Scan.scanChannel limits (build fs₂ decompiled₂ raw₂)
      = Scan.scanChannel limits (build fs₁ decompiled₁ raw₁) :=
    funext fun draft => funext fun channel => hchannel draft channel
  unfold SdkEvidence.scan
  rw [hstep]

/-- Packages with the same trees show the same under the same settings. Only the numbers of the
stages may differ, since a tree that is both is counted once. -/
theorem ofTrees (h : TwinPackages fs₁ decompiled₁ raw₁ fs₂ decompiled₂ raw₂) (c : Configuration)
    (mode : Mode) (hdatabase : Findings.database fs₂ c = Findings.database fs₁ c)
    (hcompetitors : Findings.competitors fs₂ c = Findings.competitors fs₁ c) :
    Findings.ofTrees fs₂ c mode decompiled₂ raw₂
      = { Findings.ofTrees fs₁ c mode decompiled₁ raw₁ with
          stages := (Findings.ofTrees fs₂ c mode decompiled₂ raw₂).stages } := by
  unfold Findings.ofTrees Findings.ofIndex Findings.evidenceFor
  simp only [h.metadata, hdatabase, hcompetitors, h.libraries, funext (h.scan c.limits)]

end TwinPackages
end SdkEvidence
