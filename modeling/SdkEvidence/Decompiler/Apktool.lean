import SdkEvidence.Decompiler.Launch
import SdkEvidence.Package.Input
import SdkEvidence.Text.Blank
import SdkEvidence.Text.Line
import SdkEvidence.Text.Search

/-!
# Decompilation

What a decompiler is, and the one that is launched.
-/
namespace SdkEvidence

/-! ## Decompilers

A decompiler turns a package into a readable tree. It can say beforehand whether it is able to
run. Its output counts only with a manifest at the top.
-/

/-- A tool that decompiles a package into a directory. -/
structure Decompiler where
  name : String
  check : Action Unit
  decompile (package out : PathText) : Action Unit

/-- Holds that a decompiled tree has a manifest. -/
def verifyDecompiled (out : PathText) : Action Unit := do
  if !(← Action.ask fun fs => fs.isFile (Path.join out manifestName)) then
    throw (.decompilation ("no " ++ manifestName ++ " in " ++ out))

/-! ## The apktool launcher

The tool is asked for its version to see whether it runs at all. It decompiles with the arguments
`d -f`, any further ones, the output directory and the package.
-/

/-- A launcher with arguments of its own. -/
structure Apktool where
  program : PathText
  arguments : List String
  deriving DecidableEq, Repr

namespace Apktool

/-- The name of the tool. -/
def toolName : String := "apktool"

/-- What to do when the tool is missing. -/
def installHint : String :=
  "install apktool (https://apktool.org) and a Java runtime, "
    ++ "or point \x60decompiler\x60 in .sdkprobe.toml at the apktool launcher"

/-- The failure for a missing tool. -/
def unavailable (tool : Apktool) : Failure :=
  .toolUnavailable tool.program installHint

/-- The wording for a program that exists and cannot be launched. -/
def launchFailure (reason : String) : String :=
  "failed to launch: " ++ reason

/-- Launches the tool, and keeps what it did to the files. -/
def start (tool : Apktool) (arguments : List String) (failed : String → Failure) :
    Action Shell.Finished := do
  match launch tool.program arguments (← get) with
  | .ok done =>
      set done.fs
      pure done
  | .error .missing => throw tool.unavailable
  | .error (.failed reason) => throw (failed (launchFailure reason))

/-- Holds that the tool can be launched. How it ends does not matter. -/
def check (tool : Apktool) : Action Unit := do
  let _ ← tool.start ["--version"] fun reason => .toolUnavailable tool.program reason

/-- How an ending is told. -/
def endingText : Shell.Ending → String
  | .exited status => "exit status: " ++ toString status
  | .killed signal => "signal: " ++ toString signal ++ " (" ++ signalName signal ++ ")"
where
  /-- The name of a signal. -/
  signalName : Nat → String
    | 1 => "SIGHUP"
    | 2 => "SIGINT"
    | 3 => "SIGQUIT"
    | 4 => "SIGILL"
    | 5 => "SIGTRAP"
    | 6 => "SIGABRT"
    | 7 => "SIGBUS"
    | 8 => "SIGFPE"
    | 9 => "SIGKILL"
    | 10 => "SIGUSR1"
    | 11 => "SIGSEGV"
    | 12 => "SIGUSR2"
    | 13 => "SIGPIPE"
    | 14 => "SIGALRM"
    | 15 => "SIGTERM"
    | n => "signal " ++ toString n

/-- How many of the last lines of an error stream are told. -/
def tailLines : Nat := 8

/-- The last lines of an error stream that are not blank, on one line. -/
def errorTail (errors : ByteArray) : String :=
  let all := (Text.lines (Utf8.decodeLossy errors).toList).filter fun l => !(Text.trim l).isEmpty
  Text.joined " | " ((all.drop (all.length - tailLines)).map String.ofList)

/-- Decompiles a package. -/
def decompile (tool : Apktool) (package out : PathText) : Action Unit := do
  let done ← tool.start (["d", "-f"] ++ tool.arguments ++ ["-o", out, package]) .decompilation
  if done.ending ≠ .exited 0 then
    throw (.decompilation
      (toolName ++ " exited with " ++ endingText done.ending ++ ": " ++ errorTail done.errors))
  verifyDecompiled out

/-- The launcher as a decompiler. -/
def toDecompiler (tool : Apktool) : Decompiler :=
  { name := toolName, check := tool.check, decompile := tool.decompile }

end Apktool

end SdkEvidence
