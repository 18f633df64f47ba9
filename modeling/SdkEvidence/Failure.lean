import SdkEvidence.FileSystem.Basic

/-!
# Failures

Why a run ends without a report. Each failure belongs to a class, and the class decides the exit
status of the program.
-/
namespace SdkEvidence

/-- Why a run, a merge or a configuration fails. -/
inductive Failure where
  | invalidInput (reason : String)
  | missingArgument (name : String)
  | toolUnavailable (tool hint : String)
  | noBasePackage
  | containerExtraction (reason : String)
  | baseExtraction (reason : String)
  | repackaging (reason : String)
  | decompilation (reason : String)
  | configuration (reason : String)
  | system (reason : String)
  | encoding (reason : String)
  deriving DecidableEq, Repr

/-- A failed operation on files, where nothing more is said about it. -/
def Failure.ofOsError (e : OsError) : Failure :=
  .system e.message

/-- The wording of a failure. -/
def Failure.message : Failure → String
  | .invalidInput reason => "Invalid input: " ++ reason
  | .missingArgument name => "Missing required argument: " ++ name
  | .toolUnavailable tool hint => "Required tool '" ++ tool ++ "' is not available: " ++ hint
  | .noBasePackage => "No base package found in split container"
  | .containerExtraction reason => "Split container extraction failed: " ++ reason
  | .baseExtraction reason => "Base package extraction failed: " ++ reason
  | .repackaging reason => "Repackaging failed: " ++ reason
  | .decompilation reason => "Decompilation failed: " ++ reason
  | .configuration reason => "Configuration error: " ++ reason
  | .system reason => "IO error: " ++ reason
  | .encoding reason => "Serialization error: " ++ reason

/-- Who can mend a failure: the caller, the machine's owner, the maker of the archive, or nobody
in particular. -/
inductive FailureClass where
  | input
  | environment
  | archive
  | run
  deriving DecidableEq, Repr

/-- The class of a failure. -/
def Failure.toClass : Failure → FailureClass
  | .invalidInput _ | .missingArgument _ | .configuration _ => .input
  | .toolUnavailable _ _ => .environment
  | .noBasePackage | .containerExtraction _ | .baseExtraction _ | .repackaging _ => .archive
  | .decompilation _ | .system _ | .encoding _ => .run

/-- The exit status of the program for a class. -/
def FailureClass.exitStatus : FailureClass → Nat
  | .run => 1
  | .input => 2
  | .environment => 3
  | .archive => 4

end SdkEvidence
