import SdkEvidence.Json.Writer
import SdkEvidence.Report.Basic

/-!
# Reports as JSON values

Every record is an object with its fields in a fixed order; what is missing is null.
-/
namespace SdkEvidence

/-- A mode with its keywords. -/
def Mode.toJson : Mode → Json
  | .inventory => .object [("mode", .string "inventory")]
  | .detection keywords =>
      .object [("mode", .string "detection"), ("keywords", .strings keywords)]

def PackageFacts.toJson (facts : PackageFacts) : Json :=
  .object
    [("package_id", .string facts.packageId), ("display_name", .string facts.displayName),
     ("version_name", .string facts.versionName), ("version_code", .string facts.versionCode),
     ("min_sdk", .string facts.minSdk), ("target_sdk", .string facts.targetSdk)]

def VersionStamp.toJson (stamp : VersionStamp) : Json :=
  .object [("library", .string stamp.library), ("version", .string stamp.version)]

def HardwareFeature.toJson (feature : HardwareFeature) : Json :=
  .object [("name", .string feature.name), ("required", .bool feature.required)]

def KotlinRuntime.toJson (kotlin : KotlinRuntime) : Json :=
  .object [("present", .bool kotlin.present), ("version", .option .string kotlin.version)]

def ContentSummary.toJson (summary : ContentSummary) : Json :=
  .object [("files", .nat summary.files), ("bytes", .nat summary.bytes)]

def CodePackage.toJson (package : CodePackage) : Json :=
  .object [("name", .string package.name), ("class_files", .nat package.classFiles)]

/-- A dictionary of texts. -/
def Dictionary.toJson (dictionary : Dictionary String) : Json :=
  .object (dictionary.map fun (key, value) => (key, .string value))

def PackageMetadata.toJson (m : PackageMetadata) : Json :=
  .object
    [("facts", m.facts.toJson), ("version_stamps", .list VersionStamp.toJson m.versionStamps),
     ("permissions", .strings m.permissions), ("features", .list HardwareFeature.toJson m.features),
     ("build_info", Dictionary.toJson m.buildInfo), ("kotlin", m.kotlin.toJson),
     ("assets", m.assets.toJson), ("resources", m.resources.toJson),
     ("locales", .strings m.locales), ("code_packages", .list CodePackage.toJson m.codePackages)]

def NativeLibrary.toJson (library : NativeLibrary) : Json :=
  .object
    [("name", .string library.name), ("architecture", .string library.architecture),
     ("path", .string library.path), ("size", .nat library.size),
     ("description", .option .string library.description),
     ("vendor", .option .string library.vendor), ("version", .option .string library.version)]

/-- The names of sources. -/
def SdkSource.name : SdkSource → String
  | .versionStamp => "VersionStamp"
  | .nativeLibrary => "NativeLibrary"

def DetectedSdk.toJson (sdk : DetectedSdk) : Json :=
  .object
    [("name", .string sdk.name), ("version", .option .string sdk.version),
     ("vendor", .option .string sdk.vendor), ("source", .string sdk.source.name)]

/-- The names of channels. -/
def EvidenceChannel.name : EvidenceChannel → String
  | .manifest => "Manifest"
  | .resourceXml => "ResourceXml"
  | .code => "Code"
  | .nativeLibraryName => "NativeLibraryName"
  | .assets => "Assets"
  | .libraryMetadata => "LibraryMetadata"

def ChannelEvidence.toJson (evidence : ChannelEvidence) : Json :=
  .object
    [("channel", .string evidence.channel.name), ("scanned", .bool evidence.scanned),
     ("count", .nat evidence.count), ("files", .strings evidence.files)]

def EvidenceRecord.toJson (record : EvidenceRecord) : Json :=
  .object
    [("keyword", .string record.keyword), ("found", .bool record.found),
     ("channels", .list ChannelEvidence.toJson record.channels),
     ("location_summary", .string record.summary)]

def CompetitorMatch.toJson (found : CompetitorMatch) : Json :=
  .object
    [("library_name", .string found.libraryName), ("library_path", .string found.libraryPath),
     ("library_size", .nat found.librarySize), ("competitor", .string found.competitor)]

def MergeCollision.toJson (collision : MergeCollision) : Json :=
  .object [("path", .string collision.path), ("overwritten_by", .string collision.overwrittenBy)]

def MergeOutcome.toJson (outcome : MergeOutcome) : Json :=
  .object
    [("output", .string outcome.output), ("output_bytes", .nat outcome.outputBytes),
     ("base", .string outcome.base), ("architecture_splits", .strings outcome.architectureSplits),
     ("config_splits", .strings outcome.otherSplits),
     ("entries_written", .nat outcome.entriesWritten),
     ("collisions", .list MergeCollision.toJson outcome.collisions),
     ("rejected_entries", .strings outcome.rejectedEntries)]

def Stage.toJson (stage : Stage) : Json :=
  .object
    [("name", .string stage.name), ("duration_ms", .nat stage.milliseconds),
     ("items", .nat stage.items)]

def Report.toJson (r : Report) : Json :=
  .object
    [("mode", r.mode.toJson), ("generated_at", .string r.generatedAt.text),
     ("tool_version", .string r.toolVersion), ("decompiler", .string r.decompiler),
     ("code_scan_cap", .nat r.codeScanCap),
     ("package_listing_limit", .nat r.packageListingLimit), ("source", .string r.source),
     ("package_sha256", .option .string r.packageDigest), ("metadata", r.metadata.toJson),
     ("libraries", .list NativeLibrary.toJson r.libraries),
     ("architectures", .strings r.architectures), ("sdks", .list DetectedSdk.toJson r.sdks),
     ("evidence", .list EvidenceRecord.toJson r.evidence),
     ("competitor_matches", .list CompetitorMatch.toJson r.competitorMatches),
     ("competitors_checked", .nat r.competitorsChecked),
     ("merge", .option MergeOutcome.toJson r.merge), ("stages", .list Stage.toJson r.stages)]

end SdkEvidence
