import SdkEvidence.CommandLine.Arguments
import SdkEvidence.Report.Row

/-!
# Usage texts

What the program tells about its commands and options.
-/
namespace SdkEvidence.CommandLine

/-- What an option does. -/
def OptionName.purpose : OptionName → String
  | .keyword => "Keyword to search for (repeatable); omit for a full inventory"
  | .listAll => "Full inventory even if keywords are configured elsewhere"
  | .output => "Report file name (default derived from the package id)"
  | .outputDirectory => "Directory for the report file"
  | .libraryDatabase => "Library reference database (name|description|vendor[|version])"
  | .competitors => "Competitor name list"
  | .keep => "Keep scratch, decompiled and raw trees"
  | .configuration => "Configuration file (default: ./.sdkprobe.toml if present)"
  | .format => "Report format: text or json"
  | .codeScanCap => "Maximum files read by the code content search"
  | .decompiler => "Decompiler launcher"
  | .mergedPackage => "Output package path"
  | .logLevel => "Log level filter"
  | .help => "Print help"
  | .version => "Print version"

/-- How an option is written. -/
def OptionSpec.written (spec : OptionSpec) : String :=
  let letter := match spec.letter with
    | some c => "-" ++ String.singleton c ++ ", "
    | none => "    "
  let value := if spec.kind = .nothing then "" else " <" ++ spec.long.map Char.toUpper ++ ">"
  letter ++ "--" ++ spec.long ++ value

/-- The row of an option. -/
def OptionSpec.row (spec : OptionSpec) : String :=
  "  " ++ Layout.padded 36 spec.written ++ spec.name.purpose

/-- The rows that show how to use the program or one of its commands. -/
def usageRows : Option CommandName → List String
  | none =>
      ["Android SDK evidence engine: reconstruct split packages, prove or disprove SDK presence",
       "", "Usage: sdkprobe [OPTIONS] <COMMAND>", "", "Commands:",
       "  analyze  Analyze a package, split container or decompiled tree",
       "  merge    Reconstruct a split container into a single package",
       "  help     Print this message or the help of the given subcommand", "", "Options:"]
        ++ leadingOptions.map OptionSpec.row
  | some .analyze =>
      ["Analyze a package, split container or decompiled tree", "",
       "Usage: sdkprobe analyze [OPTIONS] <INPUT>", "", "Arguments:",
       "  <INPUT>  .apk, .xapk/.apks/.apkm, a zip of .apk files, or a decompiled directory", "",
       "Options:"]
        ++ (optionsOf .analyze).map OptionSpec.row
  | some .merge =>
      ["Reconstruct a split container into a single package", "",
       "Usage: sdkprobe merge [OPTIONS] --out <OUT> <SPLIT>", "", "Arguments:",
       "  <SPLIT>  Split container (.xapk/.apks/.apkm)", "", "Options:"]
        ++ (optionsOf .merge).map OptionSpec.row

/-- How to use the program or one of its commands. -/
def usage (command : Option CommandName) : String :=
  Layout.text (usageRows command)

end SdkEvidence.CommandLine
