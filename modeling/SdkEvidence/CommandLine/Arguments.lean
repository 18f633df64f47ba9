import SdkEvidence.CommandLine.Option

/-!
# Arguments of the command line

Arguments are read from left to right. The first thing that is wrong, or that asks for help or for
the version, ends the reading. What is missing and what excludes each other is told at the end.
-/
namespace SdkEvidence.CommandLine

/-- What is wrong with the arguments. -/
inductive UsageError where
  | unknownArgument (text : String)
  | unknownCommand (text : String)
  | missingCommand
  | missingValue (option : String)
  | unexpectedValue (option value : String)
  | invalidValue (option value : String)
  | repeated (option : String)
  | conflicting (option other : String)
  | missingArgument (name : String)
  deriving DecidableEq, Repr

/-- The wording of an error. -/
def UsageError.message : UsageError → String
  | .unknownArgument text => "unexpected argument '" ++ text ++ "' found"
  | .unknownCommand text => "unrecognized subcommand '" ++ text ++ "'"
  | .missingCommand => "a subcommand is required"
  | .missingValue option => "a value is required for '--" ++ option ++ "' but none was supplied"
  | .unexpectedValue option value =>
      "unexpected value '" ++ value ++ "' for '--" ++ option ++ "' found; no more were expected"
  | .invalidValue option value => "invalid value '" ++ value ++ "' for '--" ++ option ++ "'"
  | .repeated option => "the argument '--" ++ option ++ "' cannot be used multiple times"
  | .conflicting option other =>
      "the argument '--" ++ option ++ "' cannot be used with '--" ++ other ++ "'"
  | .missingArgument name => "the required argument '" ++ name ++ "' was not provided"

/-- Why the reading ends early. -/
inductive Stop where
  | help (command : Option CommandName)
  | version
  | misuse (e : UsageError)
  deriving DecidableEq, Repr

/-- The options and the plain arguments read so far. -/
structure Given where
  options : List (OptionName × String)
  plain : List String
  deriving DecidableEq, Repr

namespace Given

/-- Nothing read. -/
def empty : Given :=
  { options := [], plain := [] }

/-- Whether an option was given. -/
def has (given : Given) (name : OptionName) : Bool :=
  given.options.any fun o => o.1 == name

/-- The value of an option. -/
def value? (given : Given) (name : OptionName) : Option String :=
  given.options.lookup name

/-- All values of an option. -/
def values (given : Given) (name : OptionName) : List String :=
  (given.options.filter fun o => o.1 == name).map Prod.snd

/-- Takes an option with its value. -/
def takeOption (command : Option CommandName) (given : Given) (spec : OptionSpec)
    (value : String) : Except Stop Given :=
  if spec.name = .help then .error (.help command)
  else if spec.name = .version then .error .version
  else if spec.name ≠ .keyword ∧ given.has spec.name then .error (.misuse (.repeated spec.long))
  else if !spec.kind.admits value then .error (.misuse (.invalidValue spec.long value))
  else .ok { given with options := given.options ++ [(spec.name, value)] }

/-- Takes a plain argument, of which there is one: a path. -/
def takePlain (given : Given) (text : String) : Except Stop Given :=
  if !given.plain.isEmpty then .error (.misuse (.unknownArgument text))
  else if text = "" then .error (.misuse (.missingArgument "path"))
  else .ok { given with plain := [text] }

end Given

/-- An argument by its form. -/
inductive Form where
  | separator
  | long (name : String) (value : Option String)
  | short (letter : Char) (value : Option String)
  | plain (text : String)
  deriving DecidableEq, Repr

/-- The value after an equals sign, or all of the text. -/
def attached : List Char → Option String
  | [] => none
  | '=' :: value => some (String.ofList value)
  | value => some (String.ofList value)

/-- The form of an argument. A single hyphen is plain. -/
def Form.of (argument : String) : Form :=
  match argument.toList with
  | ['-', '-'] => .separator
  | '-' :: '-' :: rest =>
      let name := rest.takeWhile (· != '=')
      .long (String.ofList name)
        (if name.length < rest.length then some (String.ofList (rest.drop (name.length + 1)))
        else none)
  | '-' :: letter :: rest => .short letter (attached rest)
  | _ => .plain argument

/-- The option that an argument of a form names. -/
def Form.option? (known : List OptionSpec) : Form → Option (OptionSpec × Option String)
  | .long name value => (known.find? fun o => o.long == name).map (·, value)
  | .short letter value => (known.find? fun o => o.letter == some letter).map (·, value)
  | _ => none

/-- Takes an option whose value may be attached or be the next argument. Gives the arguments that
are left. An option without a value passes over letters attached to it. -/
def takeNext (command : Option CommandName) (given : Given) (spec : OptionSpec)
    (value : Option String) (rest : List String) : Except Stop (Given × List String) :=
  if spec.kind = .nothing then (given.takeOption command spec "").map (·, rest)
  else
    match value, rest with
    | some value, rest => (given.takeOption command spec value).map (·, rest)
    | none, next :: rest =>
        match Form.of next with
        | .plain text => (given.takeOption command spec text).map (·, rest)
        | _ => .error (.misuse (.missingValue spec.long))
    | none, [] => .error (.misuse (.missingValue spec.long))

/-- Whether a flag has a value after an equals sign. -/
def isOverfull (form : Form) (spec : OptionSpec) : Bool :=
  match form with
  | .long _ (some _) => spec.kind == .nothing
  | _ => false

/-- Reads the arguments after a command. Every step takes at least one of them. -/
def readGiven (command : CommandName) : Nat → Given → List String → Except Stop Given
  | _, given, [] => .ok given
  | 0, given, _ => .ok given
  | fuel + 1, given, argument :: rest =>
      let form := Form.of argument
      match form with
      | .separator =>
          rest.foldlM Given.takePlain given
      | .plain text =>
          match given.takePlain text with
          | .ok given => readGiven command fuel given rest
          | .error stop => .error stop
      | form =>
          match form.option? (optionsOf command) with
          | none => .error (.misuse (.unknownArgument argument))
          | some (spec, value) =>
              if isOverfull form spec then
                .error (.misuse (.unexpectedValue spec.long (value.getD "")))
              else
                match takeNext (some command) given spec value rest with
                | .ok (given, rest) => readGiven command fuel given rest
                | .error stop => .error stop

/-- What to do with an input. -/
structure AnalyzeOptions where
  input : PathText
  keywords : List String
  listAll : Bool
  output : Option String
  outputDirectory : Option PathText
  libraryDatabase : Option PathText
  competitors : Option PathText
  keep : Bool
  configuration : Option PathText
  format : Option ReportFormat
  codeScanCap : Option Nat
  decompiler : Option PathText
  deriving DecidableEq, Repr

/-- A command with all that it needs. -/
inductive Command where
  | analyze (options : AnalyzeOptions)
  | merge (container output : PathText)
  deriving DecidableEq, Repr

/-- The command that arguments make up. -/
def Given.toCommand (given : Given) : CommandName → Except Stop Command
  | .analyze =>
      match given.plain with
      | [] => .error (.misuse (.missingArgument "<INPUT>"))
      | input :: _ =>
          if given.has .listAll && given.has .keyword then
            .error (.misuse (.conflicting "list-all" "keyword"))
          else
            .ok
              (.analyze
                { input
                  keywords := given.values .keyword
                  listAll := given.has .listAll
                  output := given.value? .output
                  outputDirectory := given.value? .outputDirectory
                  libraryDatabase := given.value? .libraryDatabase
                  competitors := given.value? .competitors
                  keep := given.has .keep
                  configuration := given.value? .configuration
                  format := (given.value? .format).bind fun name => ReportFormat.byName.lookup name
                  codeScanCap := (given.value? .codeScanCap).bind readCount?
                  decompiler := given.value? .decompiler })
  | .merge =>
      match given.plain, given.value? .mergedPackage with
      | container :: _, some output => .ok (.merge container output)
      | [], _ => .error (.misuse (.missingArgument "<SPLIT>"))
      | _, none => .error (.misuse (.missingArgument "--out <OUT>"))

/-- Reads a request for help on commands. -/
def readHelp : List String → Stop
  | [] => .help none
  | [name] =>
      match CommandName.byName.lookup name with
      | some command => .help (some command)
      | none => if name = "help" then .help none else .misuse (.unknownCommand name)
  | _ :: name :: _ => .misuse (.unknownCommand name)

/-- Reads the arguments up to a command, and then those of the command. -/
def readLeading : Nat → Given → List String → Except Stop Command
  | _, _, [] => .error (.misuse .missingCommand)
  | 0, _, _ => .error (.misuse .missingCommand)
  | fuel + 1, given, argument :: rest =>
      let form := Form.of argument
      match form with
      | .separator =>
          match rest with
          | [] => .error (.misuse .missingCommand)
          | text :: _ => .error (.misuse (.unknownArgument text))
      | .plain text =>
          match CommandName.byName.lookup text with
          | some command =>
              match readGiven command (rest.length + 1) .empty rest with
              | .ok given => given.toCommand command
              | .error stop => .error stop
          | none =>
              if text = "help" then .error (readHelp rest)
              else .error (.misuse (.unknownCommand text))
      | form =>
          match form.option? leadingOptions with
          | none => .error (.misuse (.unknownArgument argument))
          | some (spec, value) =>
              if isOverfull form spec then
                .error (.misuse (.unexpectedValue spec.long (value.getD "")))
              else
                match takeNext none given spec value rest with
                | .ok (given, rest) => readLeading fuel given rest
                | .error stop => .error stop

/-- The command that arguments ask for. -/
def read (arguments : List String) : Except Stop Command :=
  readLeading (arguments.length + 1) .empty arguments

end SdkEvidence.CommandLine
