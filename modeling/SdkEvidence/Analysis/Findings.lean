import SdkEvidence.Configuration.Basic
import SdkEvidence.Inventory.Competitor
import SdkEvidence.Inventory.Sdk
import SdkEvidence.Metadata.Extract
import SdkEvidence.Report.Basic

/-!
# Findings

What two trees of a package show. Examining them reads the file system and changes nothing, so the
findings are a function of it.
-/
namespace SdkEvidence

/-- A stage that gave a number of items. No time is taken here; whoever times a stage adds it. -/
def Stage.ofItems (name : String) (items : Nat) : Stage :=
  { name, milliseconds := 0, items }

/-- What the trees of a package show. -/
structure Findings where
  metadata : PackageMetadata
  libraries : List NativeLibrary
  competitorMatches : List CompetitorMatch
  competitorsChecked : Nat
  evidence : Dictionary EvidenceRecord
  stages : List Stage
  deriving DecidableEq

namespace Findings

/-- The library database of a configuration. One that cannot be read is as good as none. -/
def database (fs : FileSystem) (c : Configuration) : LibraryDatabase :=
  match c.libraryDatabase.bind fs.readText? with
  | some text => .read text
  | none => .empty

/-- The competitor list of a configuration. One that cannot be read is as good as none. -/
def competitors (fs : FileSystem) (c : Configuration) : CompetitorList :=
  match c.competitorList.bind fs.readText? with
  | some text => .read text
  | none => .empty

/-- The evidence for each keyword of a mode, kept under the keyword as requested. -/
def evidenceFor (c : Configuration) (index : PackageIndex) (mode : Mode) :
    Dictionary EvidenceRecord :=
  .insertAll [] (mode.keywords.map fun keyword => (keyword, scan c.limits index keyword))

/-- The stage of the evidence scan, which an inventory does not have. -/
def scanStage : Mode → List Stage
  | .inventory => []
  | .detection keywords => [.ofItems "Evidence scan" keywords.length]

/-- The findings in an indexed package. -/
def ofIndex (fs : FileSystem) (c : Configuration) (mode : Mode) (index : PackageIndex) :
    Findings :=
  let metadata := PackageMetadata.extract fs index
  let libraries := NativeLibrary.collect (database fs c) index
  let list := competitors fs c
  let found := list.matchesAmong libraries
  { metadata
    libraries
    competitorMatches := found
    competitorsChecked := list.names.length
    evidence := evidenceFor c index mode
    stages :=
      [.ofItems "Index" index.totalFiles, .ofItems "Metadata" metadata.versionStamps.length,
       .ofItems "Library inventory" libraries.length, .ofItems "Competitor triage" found.length]
        ++ scanStage mode }

/-- The findings in two trees, or one that is both. -/
def ofTrees (fs : FileSystem) (c : Configuration) (mode : Mode) (decompiled raw : PathText) :
    Findings :=
  ofIndex fs c mode (.build fs decompiled raw)

end Findings
end SdkEvidence
