import SdkEvidence.Report.Basic
import SdkEvidence.Report.Row

/-!
# Sections of both layouts

What the package is, which SDKs it holds, and how the report was made.
-/
namespace SdkEvidence.Layout

/-- The rows about a merge. What went wrong is told only if something did. -/
def mergeRows (merge : MergeOutcome) : List String :=
  let parts := merge.base ++ " + " ++ toString merge.architectureSplits.length
    ++ " architecture split(s) + " ++ toString merge.otherSplits.length ++ " other split(s), "
    ++ toString merge.entriesWritten ++ " entries"
  let collisions :=
    if merge.collisions.isEmpty then []
    else
      [field "Merge collisions"
        (toString merge.collisions.length ++ " path(s) overwritten with different content")]
  let rejected :=
    if merge.rejectedEntries.isEmpty then []
    else
      [field "Skipped entries" (toString merge.rejectedEntries.length ++ " with unsafe names")]
  field "Reconstructed" parts :: collisions ++ rejected

/-- The identity of the package. -/
def application (report : Report) : List String :=
  let facts := report.metadata.facts
  heading "APPLICATION"
    ++ [field "Package" facts.packageId,
        field "Name" facts.displayName,
        field "Version" (facts.versionName ++ " (code " ++ facts.versionCode ++ ")"),
        field "Min SDK" facts.minSdk,
        field "Target SDK" facts.targetSdk,
        field "Input" report.source]
    ++ (report.merge.map mergeRows).getD []

/-- Where an SDK was seen. -/
def sourceNote : SdkSource → String
  | .versionStamp => "version stamp"
  | .nativeLibrary => "native library"

/-- The row of an SDK. -/
def sdkRow (sdk : DetectedSdk) : String :=
  "  - " ++ sdk.name
    ++ (sdk.version.map fun version => " " ++ version).getD ""
    ++ (sdk.vendor.map fun vendor => " [" ++ vendor ++ "]").getD ""
    ++ "  (" ++ sourceNote sdk.source ++ ")"

/-- All detected SDKs. -/
def sdks (report : Report) : List String :=
  countedHeading "ALL DETECTED SDKS" report.sdks.length
    ++ (if report.sdks.isEmpty then
        ["  No SDKs identified from version stamps or library vendors."]
      else report.sdks.map sdkRow)

/-- The number of native libraries and their architectures. -/
def libraryCount (report : Report) : String :=
  let count := report.libraries.length
  if count = 0 then "0 native libraries found."
  else
    toString count ++ " native librar" ++ (if count = 1 then "y" else "ies") ++ " across "
      ++ toString report.architectures.length ++ " architecture(s): "
      ++ ", ".intercalate report.architectures

/-- How the report was made, with the line that ends it. -/
def technicalDetails (report : Report) : List String :=
  heading "TECHNICAL DETAILS"
    ++ [field "Tool" ("sdkprobe " ++ report.toolVersion),
        field "Decompiler" report.decompiler,
        field "Code scan cap" (toString report.codeScanCap ++ " files per keyword")]
    ++ (report.packageDigest.map fun digest => field "Package SHA-256" digest).toList
    ++ [field "Generated" report.generatedAt.readable, rule]

end SdkEvidence.Layout
