import SdkEvidence.Bytes.Utf8
import SdkEvidence.FileSystem.Resolve
import SdkEvidence.Shell.Script

/-!
# The state of a running script

A script has bindings, arguments, functions, a file system, an input and two output streams. Each
stream goes to a place that redirections change. A script that stops runs no further command up to
the loop, the function or the end that it stops for. What it says at its end is kept as text.
-/
namespace SdkEvidence.Shell

/-- Where a stream goes. -/
inductive Sink where
  | output
  | errors
  | nowhere
  | file (path : PathText)
  deriving DecidableEq, Repr

/-- How a process ends. -/
inductive Ending where
  | exited (status : Nat)
  | killed (signal : Nat)
  deriving DecidableEq, Repr

/-- Why no further command is run: the script ends, loops are left, further turns of loops begin,
or a function returns. -/
inductive Stop where
  | ended (ending : Ending)
  | loops (levels : Nat)
  | turns (levels : Nat)
  | returned
  deriving DecidableEq, Repr

/-- What a script is set to do on failures: whether one ends it, whether an unset parameter does,
and whether failures are being tested, so that they count as answers. -/
structure Strictness where
  failures : Bool
  unset : Bool
  tested : Bool
  deriving DecidableEq, Repr

/-- The state of a script. -/
structure Machine where
  fs : FileSystem
  name : String
  line : Nat
  arguments : List String
  bindings : List (String × String)
  functions : List (String × Command)
  depth : Nat
  strict : Strictness
  status : Nat
  input : ByteArray
  output : ByteArray
  errors : ByteArray
  outputSink : Sink
  errorSink : Sink
  farewell : String
  stop : Option Stop

namespace Machine

/-- The path of a location. -/
def pathOf (loc : Location) : PathText :=
  "/" ++ "/".intercalate loc

/-- A script before its first command. -/
def start (fs : FileSystem) (name : String) (arguments : List String) : Machine :=
  { fs, name, line := 1, arguments
    bindings := [("PWD", pathOf fs.current), ("TMPDIR", fs.temporary), ("IFS", " \t\n")]
    functions := [], depth := 0
    strict := { failures := false, unset := false, tested := false }
    status := 0, input := ByteArray.empty, output := ByteArray.empty, errors := ByteArray.empty
    outputSink := .output, errorSink := .errors, farewell := "", stop := none }

/-- The value of a variable; one that is not set is empty. -/
def valueOf (m : Machine) (name : String) : String :=
  (m.bindings.lookup name).getD ""

/-- Sets a variable. -/
def setVariable (m : Machine) (name value : String) : Machine :=
  { m with bindings := (name, value) :: m.bindings.filter fun v => v.1 != name }

/-- Forgets a variable. -/
def unsetVariable (m : Machine) (name : String) : Machine :=
  { m with bindings := m.bindings.filter fun v => v.1 != name }

/-- Appends to a file, which is created if it is missing. -/
def appendTo (fs : FileSystem) (path : PathText) (content : ByteArray) : FileSystem :=
  let old := match fs.readFile path with
    | .ok old => old
    | .error _ => ByteArray.empty
  match fs.writeFile path (old ++ content) with
  | .ok fs => fs
  | .error _ => fs

/-- Sends bytes to a place. -/
def send (m : Machine) (sink : Sink) (content : ByteArray) : Machine :=
  match sink with
  | .output => { m with output := m.output ++ content }
  | .errors => { m with errors := m.errors ++ content }
  | .nowhere => m
  | .file path => { m with fs := appendTo m.fs path content }

/-- Writes bytes to the output stream. -/
def print (m : Machine) (content : ByteArray) : Machine :=
  m.send m.outputSink content

/-- Writes a line to the output stream. -/
def printLine (m : Machine) (line : String) : Machine :=
  m.print (Utf8.encode (line ++ "\n"))

/-- Writes a line to the error stream. -/
def complain (m : Machine) (line : String) : Machine :=
  m.send m.errorSink (Utf8.encode (line ++ "\n"))

/-- Writes a complaint of the shell itself, which says where the script stands. -/
def complainHere (m : Machine) (text : String) : Machine :=
  m.complain (m.name ++ ": " ++ toString m.line ++ ": " ++ text)

/-- Sets the status of the last command. -/
def withStatus (m : Machine) (status : Nat) : Machine :=
  { m with status }

/-- Ends the script. -/
def endWith (m : Machine) (ending : Ending) : Machine :=
  { m with stop := some (.ended ending) }

/-- Ends the script because the shell cannot go on. -/
def abandon (m : Machine) (text : String) : Machine :=
  (m.complainHere text).endWith (.exited 2)

/-- Ends the script after a failure that was not tested, if it is set to do so. -/
def checked (m : Machine) : Machine :=
  if m.stop.isNone && m.strict.failures && !m.strict.tested && m.status != 0 then
    m.endWith (.exited m.status)
  else m

/-- The streams of another state. -/
def withStreamsOf (m other : Machine) : Machine :=
  { m with outputSink := other.outputSink, errorSink := other.errorSink, input := other.input }

/-- What was done by a script that ran apart from this one: its changes to files and what it wrote
to the error stream stay. A signal ends this script too. -/
def after (m inner : Machine) : Machine :=
  let m := { m with fs := { inner.fs with current := m.fs.current }, errors := inner.errors }
  match inner.stop with
  | some (.ended (.exited n)) => m.withStatus n
  | some (.ended (.killed n)) => m.endWith (.killed n)
  | _ => m.withStatus inner.status

/-- The state after a turn of a loop, and whether the loop goes on. -/
def afterTurn (m : Machine) : Machine × Bool :=
  match m.stop with
  | none => (m, true)
  | some (.loops (n + 2)) => ({ m with stop := some (.loops (n + 1)) }, false)
  | some (.loops _) => ({ m with stop := none }, false)
  | some (.turns (n + 2)) => ({ m with stop := some (.turns (n + 1)) }, false)
  | some (.turns _) => ({ m with stop := none }, true)
  | some _ => (m, false)

end Machine
end SdkEvidence.Shell
