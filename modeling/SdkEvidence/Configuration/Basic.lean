import SdkEvidence.Evidence.Scan
import SdkEvidence.Json.Decode
import SdkEvidence.Report.Basic

/-!
# Configurations

How a run works and where its report goes. Every setting has a default, and every setting that is
given anywhere is the same field here.
-/
namespace SdkEvidence

/-- The settings of a run. -/
structure Configuration where
  codeScanCap : Nat := 50
  codeScanTokens : List String := ["vendor", "library", "sdk"]
  keepDirectories : Bool := false
  decompiler : PathText := "apktool"
  decompilerArguments : List String := []
  libraryDatabase : Option PathText := none
  competitorList : Option PathText := none
  outputDirectory : PathText := "."
  reportFormat : ReportFormat := .text
  packageListingLimit : Nat := 20
  deriving DecidableEq, Repr

/-- The names of formats. -/
def ReportFormat.name : ReportFormat → String
  | .text => "text"
  | .json => "json"

/-- The formats by their names. -/
def ReportFormat.byName : List (String × ReportFormat) :=
  [("text", .text), ("json", .json)]

namespace Configuration

/-- All settings at their defaults. -/
def default : Configuration := {}

/-- How far the code channel goes. -/
def limits (c : Configuration) : ScanLimits :=
  { cap := c.codeScanCap, tokens := c.codeScanTokens }

/-- The settings as a JSON object. -/
def toJson (c : Configuration) : Json :=
  .object
    [("code_scan_file_cap", .nat c.codeScanCap), ("code_scan_tokens", .strings c.codeScanTokens),
     ("keep_workdirs", .bool c.keepDirectories), ("decompiler", .string c.decompiler),
     ("decompiler_args", .strings c.decompilerArguments),
     ("library_db", .option .string c.libraryDatabase),
     ("competitor_list", .option .string c.competitorList),
     ("output_dir", .string c.outputDirectory), ("report_format", .string c.reportFormat.name),
     ("package_listing_limit", .nat c.packageListingLimit)]

/-- The names of the settings, in order. -/
def names : List String :=
  ["code_scan_file_cap", "code_scan_tokens", "keep_workdirs", "decompiler", "decompiler_args",
   "library_db", "competitor_list", "output_dir", "report_format", "package_listing_limit"]

/-- Decodes settings. Those that are missing have their defaults. -/
def ofJson? (json : Json) : Option Configuration := do
  match ← json.leadingFields? names with
  | [cap, tokens, keep, decompiler, arguments, database, competitors, directory, format, limit] =>
      some
        { codeScanCap := ← Json.withDefault default.codeScanCap Json.count? cap
          codeScanTokens := ← Json.withDefault default.codeScanTokens Json.strings? tokens
          keepDirectories := ← Json.withDefault default.keepDirectories Json.bool? keep
          decompiler := ← Json.withDefault default.decompiler Json.string? decompiler
          decompilerArguments :=
            ← Json.withDefault default.decompilerArguments Json.strings? arguments
          libraryDatabase := ← Json.optional Json.string? database
          competitorList := ← Json.optional Json.string? competitors
          outputDirectory := ← Json.withDefault default.outputDirectory Json.string? directory
          reportFormat :=
            ← Json.withDefault default.reportFormat (Json.choice? ReportFormat.byName) format
          packageListingLimit := ← Json.withDefault default.packageListingLimit Json.count? limit }
  | _ => none

end Configuration
end SdkEvidence
