import SdkEvidence.Action
import SdkEvidence.Configuration.Basic
import SdkEvidence.FileSystem.Content
import SdkEvidence.Toml.Document

/-!
# Configuration files

Settings can stand in a TOML file. One named by the caller must be there; one in the working
directory is used if it is there. Either way it must be a valid document with settings of the
right kinds. Members that are no settings are passed over.
-/
namespace SdkEvidence.Configuration

/-- The name of the file in a working directory. -/
def fileName : String := ".sdkprobe.toml"

/-- A setting that may be missing, decoded. -/
def setting {α : Type} (members : TomlMembers) (key : String) (default : α)
    (decode : Toml → Option α) : Option α :=
  match members.get? key with
  | none => some default
  | some value => decode value

/-- A text. -/
def text? : Toml → Option String
  | .string s => some s
  | _ => none

/-- A list of texts. -/
def texts? : Toml → Option (List String)
  | .array items => items.mapM text?
  | _ => none

/-- A number of things. -/
def count? : Toml → Option Nat
  | .integer (.ofNat n) => some n
  | _ => none

/-- A truth value. -/
def truth? : Toml → Option Bool
  | .boolean b => some b
  | _ => none

/-- Whether a value is a container without anything in it. -/
def isHollow : Toml → Bool
  | .array items => items.isEmpty
  | .table _ members => members.isEmpty
  | .tables items => items.isEmpty
  | _ => false

/-- A format by its name, or by a table with the name as its only key and nothing there. -/
def format? : Toml → Option ReportFormat
  | .string name => ReportFormat.byName.lookup name
  | .table _ [(name, value)] => if isHollow value then ReportFormat.byName.lookup name else none
  | _ => none

/-- The settings in the table of a document. -/
def ofToml? (members : TomlMembers) : Option Configuration := do
  some
    { codeScanCap := ← setting members "code_scan_file_cap" default.codeScanCap count?
      codeScanTokens := ← setting members "code_scan_tokens" default.codeScanTokens texts?
      keepDirectories := ← setting members "keep_workdirs" default.keepDirectories truth?
      decompiler := ← setting members "decompiler" default.decompiler text?
      decompilerArguments :=
        ← setting members "decompiler_args" default.decompilerArguments texts?
      libraryDatabase := ← setting members "library_db" none fun v => (text? v).map some
      competitorList := ← setting members "competitor_list" none fun v => (text? v).map some
      outputDirectory := ← setting members "output_dir" default.outputDirectory text?
      reportFormat := ← setting members "report_format" default.reportFormat format?
      packageListingLimit :=
        ← setting members "package_listing_limit" default.packageListingLimit count? }

/-- The settings in a text. -/
def read? (text : String) : Option Configuration :=
  (Toml.read? text).bind ofToml?

/-- The settings in the file that a path leads to. -/
def ofFile (path : PathText) : Action Configuration := do
  match (← get).readText path with
  | .error e => throw (.configuration ("Failed to read " ++ path ++ ": " ++ e.message))
  | .ok text =>
      match read? text with
      | some configuration => pure configuration
      | none => throw (.configuration ("Failed to parse " ++ path ++ ": TOML parse error"))

/-- The configuration file of a directory, if it has one. -/
def discover? (fs : FileSystem) (directory : PathText) : Option PathText :=
  let path := Path.join directory fileName
  if fs.isFile path then some path else none

/-- The settings for work in a directory. -/
def ofDirectory (directory : PathText) : Action Configuration := do
  match discover? (← get) directory with
  | some path => ofFile path
  | none => pure default

/-- The settings in a file named by the caller, or else those for the working directory. -/
def resolve (named : Option PathText) : Action Configuration := do
  match named with
  | some path => ofFile path
  | none => ofDirectory (← Action.ask FileSystem.currentPath)

end SdkEvidence.Configuration
