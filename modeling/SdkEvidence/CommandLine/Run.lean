import SdkEvidence.Analysis.Run
import SdkEvidence.CommandLine.Usage
import SdkEvidence.Configuration.File
import SdkEvidence.Report.Render

/-!
# Running commands

A command is an action on the file system. It ends with what is printed and with an exit status,
which tells the class of a failure. Which paths it looks at can be told beforehand.
-/
namespace SdkEvidence.CommandLine

/-- What a command leaves for its caller. -/
structure Printed where
  status : Nat
  output : String
  errors : String
  deriving DecidableEq, Repr

/-- The settings with the options of the command line, which win. -/
def AnalyzeOptions.override (o : AnalyzeOptions) (c : Configuration) : Configuration :=
  { c with
    outputDirectory := o.outputDirectory.getD c.outputDirectory
    libraryDatabase := o.libraryDatabase.or c.libraryDatabase
    competitorList := o.competitors.or c.competitorList
    keepDirectories := o.keep || c.keepDirectories
    reportFormat := o.format.getD c.reportFormat
    codeScanCap := o.codeScanCap.getD c.codeScanCap
    decompiler := o.decompiler.getD c.decompiler }

/-- The mode that the options ask for. -/
def AnalyzeOptions.mode (o : AnalyzeOptions) : Except Failure Mode :=
  if o.listAll then .ok .inventory else Mode.ofKeywords o.keywords

/-- Analyzes an input and writes the report. -/
def analyze (o : AnalyzeOptions) (moment : Timestamp) : Action WrittenReport := do
  let c ← Configuration.resolve o.configuration
  let c := o.override c
  let mode ← liftExcept o.mode
  let report ← (Analyzer.ofConfiguration c moment).run mode o.input
  report.write c.reportFormat c.outputDirectory o.output
where
  /-- A failure that arises without the file system. -/
  liftExcept {α : Type} : Except Failure α → Action α
    | .ok a => pure a
    | .error e => throw e

/-- The rows that tell of a merge. -/
def mergedRows (outcome : MergeOutcome) : List String :=
  ("Merged " ++ outcome.base ++ " + " ++ toString outcome.architectureSplits.length
      ++ " architecture split(s) + " ++ toString outcome.otherSplits.length
      ++ " other split(s) into " ++ outcome.output ++ " (" ++ toString outcome.outputBytes
      ++ " bytes)")
    :: outcome.collisions.map (fun c =>
      "  collision: " ++ c.path ++ " (overwritten by " ++ c.overwrittenBy ++ ")")
    ++ outcome.rejectedEntries.map fun name => "  skipped unsafe entry: " ++ name

/-- Does a command. Gives what is printed when it succeeds. -/
def perform (moment : Timestamp) : Command → Action Printed
  | .analyze options => do
      let written ← analyze options moment
      pure
        { status := 0
          output := written.text ++ "\n"
          errors := "Report saved to " ++ written.path ++ "\n" }
  | .merge container output => do
      let outcome ← mergeContainer none container output
      pure { status := 0, output := Layout.text (mergedRows outcome), errors := "" }

/-- What is printed for a failure. -/
def failed (e : Failure) : Printed :=
  { status := e.toClass.exitStatus, output := "", errors := "error: " ++ e.message ++ "\n" }

/-- What is printed when no command is run. -/
def stopped : Stop → Printed
  | .help command => { status := 0, output := usage command, errors := "" }
  | .version =>
      { status := 0, output := "sdkprobe " ++ Report.currentVersion ++ "\n", errors := "" }
  | .misuse e =>
      { status := 2
        output := ""
        errors := "error: " ++ e.message ++ "\n\nFor more information, try '--help'.\n" }

/-- Runs the program with arguments at a moment. -/
def run (arguments : List String) (moment : Timestamp) (fs : FileSystem) : Printed × FileSystem :=
  match read arguments with
  | .error stop => (stopped stop, fs)
  | .ok command =>
      match (perform moment command).runIn fs with
      | (.ok printed, fs) => (printed, fs)
      | (.error e, fs) => (failed e, fs)

/-! ## Footprints

Which paths a command looks at. Some are read with all that stands below them; of others only
matters whether a directory or a file stands there.
-/

/-- The paths that a command reads, and those where it writes. -/
structure Footprint where
  read : List PathText
  written : List PathText
  deriving DecidableEq, Repr

/-- The configuration file that a command may read. -/
def Command.configurationFile : Command → Option PathText
  | .analyze options => some (options.configuration.getD Configuration.fileName)
  | .merge _ _ => none

/-- The footprint of a command with its settings. -/
def Command.footprint (c : Configuration) : Command → Footprint
  | .analyze options =>
      let c := options.override c
      { read :=
          [options.input, c.decompiler] ++ c.libraryDatabase.toList ++ c.competitorList.toList
        written :=
          c.outputDirectory :: (options.output.map (Path.join c.outputDirectory)).toList }
  | .merge container output => { read := [container], written := [output] }

/-- The settings that a command works with, if they can be read. -/
def Command.settings (command : Command) (fs : FileSystem) : Configuration :=
  match command with
  | .merge _ _ => .default
  | .analyze options =>
      match ((Configuration.resolve options.configuration).runIn fs).1 with
      | .ok c => c
      | .error _ => .default

/-- The location that a path names, when no name on the way is a link. -/
def locationOf (current : Location) (p : PathText) : Location :=
  (Path.body p).foldl (fun loc segment =>
    if Path.isFiller segment then loc
    else if segment = ".." then loc.dropLast
    else loc ++ [segment]) (if Path.isAbsolute p then [] else current)

/-- A location as a path. -/
def pathOf (loc : Location) : PathText :=
  "/" ++ "/".intercalate loc

end SdkEvidence.CommandLine
