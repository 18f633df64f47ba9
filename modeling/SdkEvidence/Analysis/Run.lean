import SdkEvidence.Analysis.Findings
import SdkEvidence.Decompiler.Apktool
import SdkEvidence.FileSystem.Content
import SdkEvidence.Package.Merge

/-!
# Runs

A run takes an input to a report. A decompiled tree is examined where it stands. A package is
decompiled and extracted into a work directory first, a split container is merged before that.
The work directory goes away when the run ends, unless it shall be kept.
-/
namespace SdkEvidence

/-- All that a run needs besides its input: the settings, the decompiler, and the moment that the
report is dated. -/
structure Analyzer where
  configuration : Configuration
  decompiler : Decompiler
  moment : Timestamp

/-- A package made ready for decompilation. -/
structure PreparedPackage where
  path : PathText
  merge : Option MergeOutcome
  stages : List Stage

namespace Analyzer

/-- The start of the name of a work directory. -/
def workLead : String := "sdkprobe-run-"

/-- The decompiler named in the report on a tree that was decompiled before. -/
def noDecompiler : String := "none (pre-decompiled)"

/-- An analyzer with the launcher that the settings name. -/
def ofConfiguration (c : Configuration) (moment : Timestamp) : Analyzer :=
  { configuration := c
    decompiler :=
      ({ program := c.decompiler, arguments := c.decompilerArguments } : Apktool).toDecompiler
    moment }

/-- The report on what a run found. Evidence is told in the order of the request. -/
def report (a : Analyzer) (mode : Mode) (source decompiler : String)
    (prepared : Option PreparedPackage) (digest : Option String) (f : Findings) : Report :=
  { mode
    generatedAt := a.moment
    toolVersion := Report.currentVersion
    decompiler
    codeScanCap := a.configuration.codeScanCap
    packageListingLimit := a.configuration.packageListingLimit
    source
    packageDigest := digest
    metadata := f.metadata
    libraries := f.libraries
    architectures := NativeLibrary.architectures f.libraries
    sdks := DetectedSdk.aggregate f.metadata.versionStamps f.libraries
    evidence := f.evidence.takeAll mode.keywords
    competitorMatches := f.competitorMatches
    competitorsChecked := f.competitorsChecked
    merge := prepared.bind PreparedPackage.merge
    stages := (prepared.map PreparedPackage.stages).getD [] ++ f.stages }

/-- Examines two trees. The decompiled one must be there. -/
def examine (a : Analyzer) (mode : Mode) (decompiled raw : PathText) : Action Findings := do
  if !(← Action.ask fun fs => fs.isDirectory decompiled) then
    throw (.invalidInput ("Decompiled tree does not exist: " ++ decompiled))
  Action.ask fun fs => .ofTrees fs a.configuration mode decompiled raw

/-- The report on two trees, or one that is both. -/
def analyzeTrees (a : Analyzer) (mode : Mode) (decompiled raw : PathText) : Action Report := do
  let found ← a.examine mode decompiled raw
  pure (a.report mode decompiled a.decompiler.name none none found)

/-- Merges a split container inside a work directory. -/
def reconstruct (work container : PathText) : Action PreparedPackage := do
  let scratch := Path.join work "scratch"
  Action.createDirectories .ofOsError scratch
  let merged := Path.join work "merged.apk"
  let outcome ← mergeContainer (some scratch) container merged
  pure
    { path := merged
      merge := some outcome
      stages := [.ofItems "Reconstruct" outcome.entriesWritten] }

/-- Makes an input that is no tree ready for decompilation. -/
def prepare (work input : PathText) : InputKind → Action PreparedPackage
  | .splitContainer => reconstruct work input
  | _ => pure { path := input, merge := none, stages := [] }

/-- Takes a package or a split container to its report inside a work directory. -/
def runIn (a : Analyzer) (mode : Mode) (input : PathText) (kind : InputKind)
    (work : PathText) : Action Report := do
  let prepared ← prepare work input kind
  let digest ← Action.ask fun fs => (fs.digest prepared.path).toOption
  let decompiled := Path.join work "decompiled"
  a.decompiler.decompile prepared.path decompiled
  verifyDecompiled decompiled
  let raw := Path.join work "raw"
  let extracted ← extractRaw prepared.path raw
  let found ← a.examine mode decompiled raw
  let prepared := { prepared with
    stages := prepared.stages ++ [.ofItems "Decompile" 1, .ofItems "Raw extraction" extracted] }
  pure (a.report mode input a.decompiler.name (some prepared) digest found)

/-- Takes an input to its report. -/
def run (a : Analyzer) (mode : Mode) (input : PathText) : Action Report := do
  match ← InputKind.detect input with
  | .decompiledTree =>
      let found ← a.examine mode input input
      pure (a.report mode input noDecompiler none none found)
  | kind =>
      a.decompiler.check
      let parent ← Action.ask FileSystem.temporary
      Action.withTemporary parent workLead a.configuration.keepDirectories
        (a.runIn mode input kind)

end Analyzer
end SdkEvidence
