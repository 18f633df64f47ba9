import SdkEvidence.Configuration.Basic

/-!
# Options of the command line

Every option has a long name, some have a letter, and most take a value of some kind. An option
may be given once, except the one for keywords.
-/
namespace SdkEvidence.CommandLine

/-- What an option is for. -/
inductive OptionName where
  | keyword
  | listAll
  | output
  | outputDirectory
  | libraryDatabase
  | competitors
  | keep
  | configuration
  | format
  | codeScanCap
  | decompiler
  | mergedPackage
  | logLevel
  | help
  | version
  deriving DecidableEq, Repr

/-- What an option takes. -/
inductive ValueKind where
  | nothing
  | text
  | path
  | count
  | format
  deriving DecidableEq, Repr

/-- An option as it is written. -/
structure OptionSpec where
  name : OptionName
  long : String
  letter : Option Char
  kind : ValueKind
  deriving DecidableEq, Repr

/-- The commands. -/
inductive CommandName where
  | analyze
  | merge
  deriving DecidableEq, Repr

/-- The commands by their names. -/
def CommandName.byName : List (String × CommandName) :=
  [("analyze", .analyze), ("merge", .merge)]

/-- The option that shows how to use the program. -/
def helpOption : OptionSpec :=
  { name := .help, long := "help", letter := some 'h', kind := .nothing }

/-- The option for how much is logged. It is taken before and after the command. -/
def logLevelOption : OptionSpec :=
  { name := .logLevel, long := "log-level", letter := none, kind := .text }

/-- The options before the command. -/
def leadingOptions : List OptionSpec :=
  [logLevelOption, helpOption,
   { name := .version, long := "version", letter := some 'V', kind := .nothing }]

/-- The options after a command. -/
def optionsOf : CommandName → List OptionSpec
  | .analyze =>
      [{ name := .keyword, long := "keyword", letter := some 'k', kind := .text },
       { name := .listAll, long := "list-all", letter := none, kind := .nothing },
       { name := .output, long := "output", letter := some 'o', kind := .text },
       { name := .outputDirectory, long := "output-dir", letter := none, kind := .path },
       { name := .libraryDatabase, long := "library-db", letter := none, kind := .path },
       { name := .competitors, long := "competitors", letter := none, kind := .path },
       { name := .keep, long := "keep", letter := none, kind := .nothing },
       { name := .configuration, long := "config", letter := none, kind := .path },
       { name := .format, long := "format", letter := none, kind := .format },
       { name := .codeScanCap, long := "code-scan-cap", letter := none, kind := .count },
       { name := .decompiler, long := "decompiler", letter := none, kind := .path },
       logLevelOption, helpOption]
  | .merge =>
      [{ name := .mergedPackage, long := "out", letter := none, kind := .path },
       logLevelOption, helpOption]

/-- The number of sixty-four bits that a text writes in decimal digits, after a plus sign or
none. -/
def readCount? (text : String) : Option Nat :=
  let digits := match text.toList with
    | '+' :: rest => rest
    | all => all
  if digits.isEmpty ∨ !digits.all Char.isDigit then none
  else
    let n := digits.foldl (fun n d => 10 * n + (d.toNat - '0'.toNat)) 0
    if n < Nat.pow 2 64 then some n else none

/-- Whether a text is a value of a kind. A path is not empty. -/
def ValueKind.admits (kind : ValueKind) (value : String) : Bool :=
  match kind with
  | .nothing | .text => true
  | .path => value != ""
  | .count => (readCount? value).isSome
  | .format => (ReportFormat.byName.lookup value).isSome

end SdkEvidence.CommandLine
