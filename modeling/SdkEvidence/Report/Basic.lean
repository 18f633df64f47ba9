import SdkEvidence.Evidence.Record
import SdkEvidence.Inventory.Competitor
import SdkEvidence.Inventory.Sdk
import SdkEvidence.Metadata.Extract
import SdkEvidence.Mode
import SdkEvidence.Package.Merge
import SdkEvidence.Report.Timestamp

/-!
# Reports

The result of a run: what was looked for, what the package is, what it holds, and how the run went.
-/
namespace SdkEvidence

/-- One stage of a run: how long it took and how many items it gave. -/
structure Stage where
  name : String
  milliseconds : Nat
  items : Nat
  deriving DecidableEq, Repr

/-- The result of a run. -/
structure Report where
  mode : Mode
  generatedAt : Timestamp
  toolVersion : String
  decompiler : String
  codeScanCap : Nat
  packageListingLimit : Nat
  source : String
  packageDigest : Option String
  metadata : PackageMetadata
  libraries : List NativeLibrary
  architectures : List String
  sdks : List DetectedSdk
  evidence : List EvidenceRecord
  competitorMatches : List CompetitorMatch
  competitorsChecked : Nat
  merge : Option MergeOutcome
  stages : List Stage
  deriving DecidableEq

namespace Report

/-- The version of the tool. -/
def currentVersion : String := "0.3.0"

/-- The records of keywords that were found. -/
def found (report : Report) : List EvidenceRecord :=
  report.evidence.filter EvidenceRecord.found

/-- The records of keywords that were not found. -/
def notFound (report : Report) : List EvidenceRecord :=
  report.evidence.filter fun record => !record.found

/-- Whether any keyword was found. -/
def anyFound (report : Report) : Bool :=
  report.evidence.any EvidenceRecord.found

end Report

/-- How a report is written. -/
inductive ReportFormat where
  | text
  | json
  deriving DecidableEq, Repr

/-- The extension of a report file. -/
def ReportFormat.extension : ReportFormat → String
  | .text => "txt"
  | .json => "json"

end SdkEvidence
