import SdkEvidence.Proofs.Dictionary
import SdkEvidence.Proofs.Json.Faithful
import SdkEvidence.Proofs.Report.Timestamp
import SdkEvidence.Report.Decode
import SdkEvidence.Report.Render

/-!
# Reports written and read back

A report is read back from its JSON text (`Report.read?_render`), if it is one that a run can hold
(`Report.Fits`): its counts are of sixty-four bits, and the keys of its build properties are in
order, as they are in what is extracted of a package (`PackageMetadata.sorted_buildInfo`). Its year
has four digits, since other years are written with a sign. Each record is kept by its encoder and
decoder, given that its parts are.
-/
namespace SdkEvidence

open Json (Faithful faithful_string faithful_nat faithful_strings faithful_option_string)

/-! ## What a report may hold -/

/-- Counts of sixty-four bits. -/
structure ContentSummary.Fits (summary : ContentSummary) : Prop where
  files : Json.IsCount summary.files
  bytes : Json.IsCount summary.bytes

/-- Counts of sixty-four bits, and the keys of the build properties in order. -/
structure PackageMetadata.Fits (m : PackageMetadata) : Prop where
  buildInfo : m.buildInfo.Sorted
  assets : m.assets.Fits
  resources : m.resources.Fits
  codePackages : ∀ package ∈ m.codePackages, Json.IsCount package.classFiles

/-- Counts of sixty-four bits. -/
structure MergeOutcome.Fits (outcome : MergeOutcome) : Prop where
  outputBytes : Json.IsCount outcome.outputBytes
  entriesWritten : Json.IsCount outcome.entriesWritten

/-- Counts of sixty-four bits. -/
structure Stage.Fits (stage : Stage) : Prop where
  milliseconds : Json.IsCount stage.milliseconds
  items : Json.IsCount stage.items

/-- Counts of sixty-four bits throughout, the keys of the build properties in order, and a year of
four digits. -/
structure Report.Fits (r : Report) : Prop where
  year : 0 ≤ r.generatedAt.year ∧ r.generatedAt.year ≤ 9999
  codeScanCap : Json.IsCount r.codeScanCap
  packageListingLimit : Json.IsCount r.packageListingLimit
  metadata : r.metadata.Fits
  libraries : ∀ library ∈ r.libraries, Json.IsCount library.size
  evidence : ∀ record ∈ r.evidence, ∀ found ∈ record.channels, Json.IsCount found.count
  competitorMatches : ∀ found ∈ r.competitorMatches, Json.IsCount found.librarySize
  competitorsChecked : Json.IsCount r.competitorsChecked
  merge : ∀ outcome ∈ r.merge, outcome.Fits
  stages : ∀ stage ∈ r.stages, stage.Fits

/-- The build properties of a package are set one after the other, which keeps their keys in
order. -/
theorem PackageMetadata.sorted_buildInfo (fs : FileSystem) (index : PackageIndex) :
    (PackageMetadata.extract fs index).buildInfo.Sorted := by
  have hbase : (PackageMetadata.manifestInfo fs index).buildAttributes.Sorted :=
    Dictionary.Sorted.insertAll List.Pairwise.nil _
  exact (hbase.insertAll _).insertAll _

/-! ## Records -/

theorem VersionStamp.faithful (depth : Nat) (stamp : VersionStamp) :
    Faithful (depth + 1) toJson ofJson? stamp where
  written := .object (by simp [Json.Written.string])
  decoded := by
    rw [ofJson?, toJson, Json.fields?_object (by rfl) (by decide)]
    rfl

theorem PackageFacts.faithful (depth : Nat) (facts : PackageFacts) :
    Faithful (depth + 1) toJson ofJson? facts where
  written := .object (by simp [Json.Written.string])
  decoded := by
    rw [ofJson?, toJson, Json.fields?_object (by rfl) (by decide)]
    rfl

theorem HardwareFeature.faithful (depth : Nat) (feature : HardwareFeature) :
    Faithful (depth + 1) toJson ofJson? feature where
  written := .object (by simp [Json.Written.string, Json.Written.bool])
  decoded := by
    rw [ofJson?, toJson, Json.fields?_object (by rfl) (by decide)]
    rfl

theorem KotlinRuntime.faithful (depth : Nat) (kotlin : KotlinRuntime) :
    Faithful (depth + 1) toJson ofJson? kotlin where
  written := .object (by simp [Json.Written.bool, (faithful_option_string _ _).written])
  decoded := by
    have hversion := (faithful_option_string depth kotlin.version).decoded
    rw [ofJson?, toJson, Json.fields?_object (by rfl) (by decide)]
    simp [Json.required, Json.bool?, hversion]

theorem ContentSummary.faithful (depth : Nat) {summary : ContentSummary} (h : summary.Fits) :
    Faithful (depth + 1) toJson ofJson? summary where
  written := .object (by
    simp [(faithful_nat depth h.files).written, (faithful_nat depth h.bytes).written])
  decoded := by
    rw [ofJson?, toJson, Json.fields?_object (by rfl) (by decide)]
    simp [Json.required, (faithful_nat depth h.files).decoded, (faithful_nat depth h.bytes).decoded]

theorem CodePackage.faithful (depth : Nat) {package : CodePackage}
    (h : Json.IsCount package.classFiles) : Faithful (depth + 1) toJson ofJson? package where
  written := .object (by simp [Json.Written.string, (faithful_nat depth h).written])
  decoded := by
    rw [ofJson?, toJson, Json.fields?_object (by rfl) (by decide)]
    simp [Json.required, Json.string?, (faithful_nat depth h).decoded]

/-- A dictionary of texts whose keys are in order. -/
theorem Dictionary.faithful (depth : Nat) {dictionary : Dictionary String}
    (h : dictionary.Sorted) :
    Faithful (depth + 1) Dictionary.toJson Dictionary.ofJson? dictionary where
  written := .object fun member hmember => by
    obtain ⟨entry, -, rfl⟩ := List.mem_map.mp hmember
    exact .string depth entry.2
  decoded := by
    rw [Dictionary.toJson, Dictionary.ofJson?, Json.mapM_map_eq_some (by intros; rfl),
      Option.bind_eq_bind, Option.bind_some, insertAll_of_sorted h]

theorem PackageMetadata.faithful (depth : Nat) {m : PackageMetadata} (h : m.Fits) :
    Faithful (depth + 3) toJson ofJson? m := by
  have facts := PackageFacts.faithful (depth + 1) m.facts
  have versionStamps := Faithful.list fun stamp (_ : stamp ∈ m.versionStamps) =>
    VersionStamp.faithful depth stamp
  have permissions := faithful_strings (depth + 1) m.permissions
  have features := Faithful.list fun feature (_ : feature ∈ m.features) =>
    HardwareFeature.faithful depth feature
  have buildInfo := Dictionary.faithful (depth + 1) h.buildInfo
  have kotlin := KotlinRuntime.faithful (depth + 1) m.kotlin
  have assets := ContentSummary.faithful (depth + 1) h.assets
  have resources := ContentSummary.faithful (depth + 1) h.resources
  have locales := faithful_strings (depth + 1) m.locales
  have codePackages := Faithful.list fun package hpackage =>
    CodePackage.faithful depth (h.codePackages package hpackage)
  constructor
  · exact .object (by
      simp [facts.written, versionStamps.written, permissions.written, features.written,
        buildInfo.written, kotlin.written, assets.written, resources.written, locales.written,
        codePackages.written])
  · rw [ofJson?, toJson, Json.fields?_object (by rfl) (by decide)]
    simp [Json.required, facts.decoded, versionStamps.decoded, permissions.decoded,
      features.decoded, buildInfo.decoded, kotlin.decoded, assets.decoded, resources.decoded,
      locales.decoded, codePackages.decoded]

theorem NativeLibrary.faithful (depth : Nat) {library : NativeLibrary}
    (h : Json.IsCount library.size) : Faithful (depth + 1) toJson ofJson? library := by
  have size := faithful_nat depth h
  have text := faithful_option_string depth
  constructor
  · exact .object (by simp [Json.Written.string, size.written, (text _).written])
  · rw [ofJson?, toJson, Json.fields?_object (by rfl) (by decide)]
    simp [Json.required, Json.string?, size.decoded, (text _).decoded]

theorem SdkSource.faithful (depth : Nat) (source : SdkSource) :
    Faithful depth (fun source => .string source.name) ofJson? source where
  written := .string depth source.name
  decoded := by cases source <;> rfl

theorem DetectedSdk.faithful (depth : Nat) (sdk : DetectedSdk) :
    Faithful (depth + 1) toJson ofJson? sdk := by
  have source := SdkSource.faithful depth sdk.source
  have text := faithful_option_string depth
  constructor
  · exact .object (by simp [Json.Written.string, (text _).written])
  · rw [ofJson?, toJson, Json.fields?_object (by rfl) (by decide)]
    simp [Json.required, Json.string?, source.decoded, (text _).decoded]

theorem EvidenceChannel.faithful (depth : Nat) (channel : EvidenceChannel) :
    Faithful depth (fun channel => .string channel.name) ofJson? channel where
  written := .string depth channel.name
  decoded := by cases channel <;> rfl

theorem ChannelEvidence.faithful (depth : Nat) {evidence : ChannelEvidence}
    (h : Json.IsCount evidence.count) : Faithful (depth + 2) toJson ofJson? evidence := by
  have channel := EvidenceChannel.faithful (depth + 1) evidence.channel
  have count := faithful_nat (depth + 1) h
  have files := faithful_strings depth evidence.files
  constructor
  · exact .object (by
      simp [Json.Written.bool, channel.written, count.written, files.written])
  · rw [ofJson?, toJson, Json.fields?_object (by rfl) (by decide)]
    simp [Json.required, Json.bool?, channel.decoded, count.decoded, files.decoded]

theorem EvidenceRecord.faithful (depth : Nat) {record : EvidenceRecord}
    (h : ∀ evidence ∈ record.channels, Json.IsCount evidence.count) :
    Faithful (depth + 4) toJson ofJson? record := by
  have channels := Faithful.list fun evidence hevidence =>
    ChannelEvidence.faithful depth (h evidence hevidence)
  constructor
  · exact .object (by simp [Json.Written.bool, Json.Written.string, channels.written])
  · rw [ofJson?, toJson, Json.fields?_object (by rfl) (by decide)]
    simp [Json.required, Json.bool?, Json.string?, channels.decoded]

theorem CompetitorMatch.faithful (depth : Nat) {found : CompetitorMatch}
    (h : Json.IsCount found.librarySize) : Faithful (depth + 1) toJson ofJson? found := by
  have size := faithful_nat depth h
  constructor
  · exact .object (by simp [Json.Written.string, size.written])
  · rw [ofJson?, toJson, Json.fields?_object (by rfl) (by decide)]
    simp [Json.required, Json.string?, size.decoded]

theorem MergeCollision.faithful (depth : Nat) (collision : MergeCollision) :
    Faithful (depth + 1) toJson ofJson? collision where
  written := .object (by simp [Json.Written.string])
  decoded := by
    rw [ofJson?, toJson, Json.fields?_object (by rfl) (by decide)]
    rfl

theorem MergeOutcome.faithful (depth : Nat) {outcome : MergeOutcome} (h : outcome.Fits) :
    Faithful (depth + 3) toJson ofJson? outcome := by
  have outputBytes := faithful_nat (depth + 2) h.outputBytes
  have strings := faithful_strings (depth + 1)
  have entriesWritten := faithful_nat (depth + 2) h.entriesWritten
  have collisions := Faithful.list fun collision (_ : collision ∈ outcome.collisions) =>
    MergeCollision.faithful depth collision
  constructor
  · exact .object (by
      simp [Json.Written.string, outputBytes.written, (strings _).written, entriesWritten.written,
        collisions.written])
  · rw [ofJson?, toJson, Json.fields?_object (by rfl) (by decide)]
    simp [Json.required, Json.string?, outputBytes.decoded, (strings _).decoded,
      entriesWritten.decoded, collisions.decoded]

theorem Stage.faithful (depth : Nat) {stage : Stage} (h : stage.Fits) :
    Faithful (depth + 1) toJson ofJson? stage := by
  have milliseconds := faithful_nat depth h.milliseconds
  have items := faithful_nat depth h.items
  constructor
  · exact .object (by simp [Json.Written.string, milliseconds.written, items.written])
  · rw [ofJson?, toJson, Json.fields?_object (by rfl) (by decide)]
    simp [Json.required, Json.string?, milliseconds.decoded, items.decoded]

/-- A mode is told by its tag, which stands beside its keywords. -/
theorem Mode.faithful (depth : Nat) (mode : Mode) : Faithful (depth + 2) toJson ofJson? mode := by
  cases mode with
  | inventory => exact ⟨.object (by simp [Json.Written.string]), rfl⟩
  | detection keywords =>
    have keywords := faithful_strings depth keywords
    refine ⟨.object (by simp [Json.Written.string, keywords.written]), ?_⟩
    exact congrArg (Option.map Mode.detection) keywords.decoded

theorem Timestamp.faithful (depth : Nat) {t : Timestamp} (hlow : 0 ≤ t.year)
    (hhigh : t.year ≤ 9999) : Faithful depth (fun t => .string t.text) ofJson? t where
  written := .string depth t.text
  decoded := by rw [ofJson?, Json.string?, Option.bind_some, t.read?_text hlow hhigh]

theorem Report.faithful (depth : Nat) {r : Report} (h : r.Fits) :
    Faithful (depth + 6) toJson ofJson? r := by
  have mode := Mode.faithful (depth + 3) r.mode
  have text := faithful_string (depth + 5)
  have generatedAt := Timestamp.faithful (depth + 5) h.year.1 h.year.2
  have codeScanCap := faithful_nat (depth + 5) h.codeScanCap
  have packageListingLimit := faithful_nat (depth + 5) h.packageListingLimit
  have packageDigest := faithful_option_string (depth + 5) r.packageDigest
  have metadata := PackageMetadata.faithful (depth + 2) h.metadata
  have libraries := Faithful.list fun library hlibrary =>
    NativeLibrary.faithful (depth + 3) (h.libraries library hlibrary)
  have architectures := faithful_strings (depth + 4) r.architectures
  have sdks := Faithful.list fun sdk (_ : sdk ∈ r.sdks) => DetectedSdk.faithful (depth + 3) sdk
  have evidence := Faithful.list fun record hrecord =>
    EvidenceRecord.faithful depth (h.evidence record hrecord)
  have competitorMatches := Faithful.list fun found hfound =>
    CompetitorMatch.faithful (depth + 3) (h.competitorMatches found hfound)
  have competitorsChecked := faithful_nat (depth + 5) h.competitorsChecked
  have merge := Faithful.option
    (fun outcome houtcome => MergeOutcome.faithful (depth + 2) (h.merge outcome houtcome))
    (fun _ => Json.noConfusion)
  have stages := Faithful.list fun stage hstage =>
    Stage.faithful (depth + 3) (h.stages stage hstage)
  constructor
  · exact .object (by
      simp [Json.Written.string, mode.written, codeScanCap.written, packageListingLimit.written,
        packageDigest.written, metadata.written, libraries.written, architectures.written,
        sdks.written, evidence.written, competitorMatches.written, competitorsChecked.written,
        merge.written, stages.written])
  · rw [ofJson?, toJson, Json.fields?_object (by rfl) (by decide)]
    refine Option.bind_eq_some_iff.mpr ⟨_, rfl, ?_⟩
    refine Option.bind_eq_some_iff.mpr ⟨_, mode.required, ?_⟩
    refine Option.bind_eq_some_iff.mpr ⟨_, generatedAt.required, ?_⟩
    refine Option.bind_eq_some_iff.mpr ⟨_, (text _).required, ?_⟩
    refine Option.bind_eq_some_iff.mpr ⟨_, (text _).required, ?_⟩
    refine Option.bind_eq_some_iff.mpr ⟨_, codeScanCap.required, ?_⟩
    refine Option.bind_eq_some_iff.mpr ⟨_, packageListingLimit.required, ?_⟩
    refine Option.bind_eq_some_iff.mpr ⟨_, (text _).required, ?_⟩
    refine Option.bind_eq_some_iff.mpr ⟨_, packageDigest.decoded, ?_⟩
    refine Option.bind_eq_some_iff.mpr ⟨_, metadata.required, ?_⟩
    refine Option.bind_eq_some_iff.mpr ⟨_, libraries.required, ?_⟩
    refine Option.bind_eq_some_iff.mpr ⟨_, architectures.required, ?_⟩
    refine Option.bind_eq_some_iff.mpr ⟨_, sdks.required, ?_⟩
    refine Option.bind_eq_some_iff.mpr ⟨_, evidence.required, ?_⟩
    refine Option.bind_eq_some_iff.mpr ⟨_, competitorMatches.required, ?_⟩
    refine Option.bind_eq_some_iff.mpr ⟨_, competitorsChecked.required, ?_⟩
    refine Option.bind_eq_some_iff.mpr ⟨_, merge.decoded, ?_⟩
    exact Option.bind_eq_some_iff.mpr ⟨_, stages.required, rfl⟩

/-- A report is read back from its JSON text, and writing what was read gives the same text. -/
theorem Report.read?_render {r : Report} (h : r.Fits) :
    Report.read? (r.render .json) = some r
      ∧ (Report.read? (r.render .json)).map (Report.render · .json) = some (r.render .json) := by
  have hfaithful := Report.faithful 121 h
  have hread : Report.read? (r.render .json) = some r := by
    rw [Report.read?, Report.render, Json.read?_pretty hfaithful.written, Option.bind_some,
      hfaithful.decoded]
  exact ⟨hread, by rw [hread, Option.map_some]⟩

/-- A report with escapes in its texts, the greatest counts and a part of a second. -/
def Report.extreme : Report where
  mode := .detection ["\x01\x02\"\\\x7f", "😀"]
  generatedAt :=
    { year := 9999, month := 12, day := 31, hour := 23, minute := 59, second := 60
      nanosecond := 123456789, valid := by decide }
  toolVersion := Report.currentVersion
  decompiler := "apktool"
  codeScanCap := 18446744073709551615
  packageListingLimit := 0
  source := "in/\t.apks"
  packageDigest := none
  metadata :=
    { facts :=
        { packageId := "com.example", displayName := "\r\n", versionName := "1", versionCode := "1"
          minSdk := "21", targetSdk := "34" }
      versionStamps := []
      permissions := [""]
      features := []
      buildInfo := [("a", "1"), ("b", "2")]
      kotlin := { present := true, version := none }
      assets := { files := 1, bytes := 18446744073709551615 }
      resources := { files := 0, bytes := 0 }
      locales := []
      codePackages := [] }
  libraries :=
    [{ name := "libx.so", architecture := "arm64-v8a", path := "lib/libx.so"
       size := 18446744073709551615, description := none, vendor := some "null", version := none }]
  architectures := ["arm64-v8a"]
  sdks := [{ name := "x", version := some "2", vendor := none, source := .nativeLibrary }]
  evidence := []
  competitorMatches := []
  competitorsChecked := 0
  merge := some
    { output := "out.apk", outputBytes := 18446744073709551615, base := "base.apk"
      architectureSplits := [], otherSplits := [], entriesWritten := 1
      collisions := [{ path := "a", overwrittenBy := "b" }], rejectedEntries := [] }
  stages := [{ name := "merge", milliseconds := 18446744073709551615, items := 1 }]

theorem Report.fits_extreme : Report.extreme.Fits where
  year := by decide
  codeScanCap := by decide
  packageListingLimit := by decide
  metadata :=
    { buildInfo := List.pairwise_pair.mpr (by decide)
      assets := ⟨by decide, by decide⟩
      resources := ⟨by decide, by decide⟩
      codePackages := by decide }
  libraries := by decide
  evidence := by decide
  competitorMatches := by decide
  competitorsChecked := by decide
  merge := by
    rintro outcome houtcome
    obtain rfl := Option.some.inj houtcome
    exact ⟨by decide, by decide⟩
  stages := by
    rintro stage hstage
    obtain rfl := List.mem_singleton.mp hstage
    exact ⟨by decide, by decide⟩

theorem Report.read?_render_extreme :
    Report.extreme.Fits
      ∧ Report.read? (Report.extreme.render .json) = some Report.extreme
      ∧ (Report.read? (Report.extreme.render .json)).map (Report.render · .json)
        = some (Report.extreme.render .json) :=
  ⟨Report.fits_extreme, Report.read?_render Report.fits_extreme⟩

end SdkEvidence
