import SdkEvidence.Json.Decode
import SdkEvidence.Json.Reader
import SdkEvidence.Report.Encode

/-!
# Reading reports back

Each record is decoded from the fields that it is written with.
-/
namespace SdkEvidence

/-- Decodes a mode from its tag and its keywords. As an array it has the tag in front. -/
def Mode.ofJson? (json : Json) : Option Mode :=
  match json with
  | .object _ =>
      match json.member? "mode" with
      | some (.string "inventory") => some .inventory
      | some (.string "detection") =>
          ((json.member? "keywords").bind Json.strings?).map .detection
      | _ => none
  | .array (.string "inventory" :: _) => some .inventory
  | .array [.string "detection", keywords] => keywords.strings?.map .detection
  | _ => none

def PackageFacts.ofJson? (json : Json) : Option PackageFacts := do
  let text := Json.required Json.string?
  match ← json.fields?
      ["package_id", "display_name", "version_name", "version_code", "min_sdk", "target_sdk"] with
  | [a, b, c, d, e, f] =>
      some
        { packageId := ← text a, displayName := ← text b, versionName := ← text c
          versionCode := ← text d, minSdk := ← text e, targetSdk := ← text f }
  | _ => none

def VersionStamp.ofJson? (json : Json) : Option VersionStamp := do
  match ← json.fields? ["library", "version"] with
  | [a, b] =>
      some { library := ← Json.required Json.string? a, version := ← Json.required Json.string? b }
  | _ => none

def HardwareFeature.ofJson? (json : Json) : Option HardwareFeature := do
  match ← json.fields? ["name", "required"] with
  | [a, b] =>
      some { name := ← Json.required Json.string? a, required := ← Json.required Json.bool? b }
  | _ => none

def KotlinRuntime.ofJson? (json : Json) : Option KotlinRuntime := do
  match ← json.fields? ["present", "version"] with
  | [a, b] =>
      some { present := ← Json.required Json.bool? a, version := ← Json.optional Json.string? b }
  | _ => none

def ContentSummary.ofJson? (json : Json) : Option ContentSummary := do
  match ← json.fields? ["files", "bytes"] with
  | [a, b] =>
      some { files := ← Json.required Json.count? a, bytes := ← Json.required Json.count? b }
  | _ => none

def CodePackage.ofJson? (json : Json) : Option CodePackage := do
  match ← json.fields? ["name", "class_files"] with
  | [a, b] =>
      some { name := ← Json.required Json.string? a, classFiles := ← Json.required Json.count? b }
  | _ => none

/-- Decodes a dictionary of texts. -/
def Dictionary.ofJson? : Json → Option (Dictionary String)
  | .object members => do
      let pairs ← members.mapM fun (key, value) => value.string?.map (key, ·)
      some (Dictionary.insertAll [] pairs)
  | _ => none

def PackageMetadata.ofJson? (json : Json) : Option PackageMetadata := do
  match ← json.fields?
      ["facts", "version_stamps", "permissions", "features", "build_info", "kotlin", "assets",
       "resources", "locales", "code_packages"] with
  | [a, b, c, d, e, f, g, h, i, j] =>
      some
        { facts := ← Json.required PackageFacts.ofJson? a
          versionStamps := ← Json.required (Json.items? VersionStamp.ofJson?) b
          permissions := ← Json.required Json.strings? c
          features := ← Json.required (Json.items? HardwareFeature.ofJson?) d
          buildInfo := ← Json.required Dictionary.ofJson? e
          kotlin := ← Json.required KotlinRuntime.ofJson? f
          assets := ← Json.required ContentSummary.ofJson? g
          resources := ← Json.required ContentSummary.ofJson? h
          locales := ← Json.required Json.strings? i
          codePackages := ← Json.required (Json.items? CodePackage.ofJson?) j }
  | _ => none

def NativeLibrary.ofJson? (json : Json) : Option NativeLibrary := do
  let text := Json.required Json.string?
  match ← json.fields?
      ["name", "architecture", "path", "size", "description", "vendor", "version"] with
  | [a, b, c, d, e, f, g] =>
      some
        { name := ← text a, architecture := ← text b, path := ← text c
          size := ← Json.required Json.count? d
          description := ← Json.optional Json.string? e
          vendor := ← Json.optional Json.string? f
          version := ← Json.optional Json.string? g }
  | _ => none

/-- Decodes the name of a source. -/
def SdkSource.ofJson? : Json → Option SdkSource :=
  Json.choice? ([SdkSource.versionStamp, .nativeLibrary].map fun source => (source.name, source))

def DetectedSdk.ofJson? (json : Json) : Option DetectedSdk := do
  match ← json.fields? ["name", "version", "vendor", "source"] with
  | [a, b, c, d] =>
      some
        { name := ← Json.required Json.string? a, version := ← Json.optional Json.string? b
          vendor := ← Json.optional Json.string? c, source := ← Json.required SdkSource.ofJson? d }
  | _ => none

/-- Decodes the name of a channel. -/
def EvidenceChannel.ofJson? : Json → Option EvidenceChannel :=
  Json.choice? (EvidenceChannel.all.map fun channel => (channel.name, channel))

def ChannelEvidence.ofJson? (json : Json) : Option ChannelEvidence := do
  match ← json.fields? ["channel", "scanned", "count", "files"] with
  | [a, b, c, d] =>
      some
        { channel := ← Json.required EvidenceChannel.ofJson? a
          scanned := ← Json.required Json.bool? b
          count := ← Json.required Json.count? c, files := ← Json.required Json.strings? d }
  | _ => none

def EvidenceRecord.ofJson? (json : Json) : Option EvidenceRecord := do
  match ← json.fields? ["keyword", "found", "channels", "location_summary"] with
  | [a, b, c, d] =>
      some
        { keyword := ← Json.required Json.string? a, found := ← Json.required Json.bool? b
          channels := ← Json.required (Json.items? ChannelEvidence.ofJson?) c
          summary := ← Json.required Json.string? d }
  | _ => none

def CompetitorMatch.ofJson? (json : Json) : Option CompetitorMatch := do
  match ← json.fields? ["library_name", "library_path", "library_size", "competitor"] with
  | [a, b, c, d] =>
      some
        { libraryName := ← Json.required Json.string? a
          libraryPath := ← Json.required Json.string? b
          librarySize := ← Json.required Json.count? c
          competitor := ← Json.required Json.string? d }
  | _ => none

def MergeCollision.ofJson? (json : Json) : Option MergeCollision := do
  match ← json.fields? ["path", "overwritten_by"] with
  | [a, b] =>
      some
        { path := ← Json.required Json.string? a, overwrittenBy := ← Json.required Json.string? b }
  | _ => none

def MergeOutcome.ofJson? (json : Json) : Option MergeOutcome := do
  match ← json.fields?
      ["output", "output_bytes", "base", "architecture_splits", "config_splits", "entries_written",
       "collisions", "rejected_entries"] with
  | [a, b, c, d, e, f, g, h] =>
      some
        { output := ← Json.required Json.string? a, outputBytes := ← Json.required Json.count? b
          base := ← Json.required Json.string? c
          architectureSplits := ← Json.required Json.strings? d
          otherSplits := ← Json.required Json.strings? e
          entriesWritten := ← Json.required Json.count? f
          collisions := ← Json.required (Json.items? MergeCollision.ofJson?) g
          rejectedEntries := ← Json.required Json.strings? h }
  | _ => none

def Stage.ofJson? (json : Json) : Option Stage := do
  match ← json.fields? ["name", "duration_ms", "items"] with
  | [a, b, c] =>
      some
        { name := ← Json.required Json.string? a, milliseconds := ← Json.required Json.count? b
          items := ← Json.required Json.count? c }
  | _ => none

/-- Decodes a timestamp. -/
def Timestamp.ofJson? (json : Json) : Option Timestamp :=
  json.string?.bind Timestamp.read?

def Report.ofJson? (json : Json) : Option Report := do
  let text := Json.required Json.string?
  let count := Json.required Json.count?
  match ← json.fields?
      ["mode", "generated_at", "tool_version", "decompiler", "code_scan_cap",
       "package_listing_limit", "source", "package_sha256", "metadata", "libraries",
       "architectures", "sdks", "evidence", "competitor_matches", "competitors_checked", "merge",
       "stages"] with
  | [a, b, c, d, e, f, g, h, i, j, k, l, m, n, o, p, q] =>
      some
        { mode := ← Json.required Mode.ofJson? a
          generatedAt := ← Json.required Timestamp.ofJson? b
          toolVersion := ← text c, decompiler := ← text d, codeScanCap := ← count e
          packageListingLimit := ← count f, source := ← text g
          packageDigest := ← Json.optional Json.string? h
          metadata := ← Json.required PackageMetadata.ofJson? i
          libraries := ← Json.required (Json.items? NativeLibrary.ofJson?) j
          architectures := ← Json.required Json.strings? k
          sdks := ← Json.required (Json.items? DetectedSdk.ofJson?) l
          evidence := ← Json.required (Json.items? EvidenceRecord.ofJson?) m
          competitorMatches := ← Json.required (Json.items? CompetitorMatch.ofJson?) n
          competitorsChecked := ← count o
          merge := ← Json.optional MergeOutcome.ofJson? p
          stages := ← Json.required (Json.items? Stage.ofJson?) q }
  | _ => none

/-- The report that a text stands for. -/
def Report.read? (text : String) : Option Report :=
  (Json.read? text).bind Report.ofJson?

end SdkEvidence
