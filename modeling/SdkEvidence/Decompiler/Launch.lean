import SdkEvidence.Shell.Run

/-!
# Launching programs

A program is launched by its path, or by its bare name from the usual directories. A script names
its interpreter in its first line.
-/
namespace SdkEvidence

/-- Why a program cannot be launched. -/
inductive LaunchError where
  | missing
  | failed (reason : String)
  deriving DecidableEq, Repr

namespace Launch

/-- The programs that the machine always has. -/
inductive SystemProgram where
  | shell
  | succeed
  | fail
  | viaName
  deriving DecidableEq, Repr

/-- A program of the machine by its name. -/
def systemProgram? (name : String) : Option SystemProgram :=
  match name with
  | "sh" | "dash" | "bash" => some .shell
  | "true" => some .succeed
  | "false" => some .fail
  | "env" => some .viaName
  | _ => none

/-- The directories that bare names are searched in. -/
def searchDirectories : List PathText := ["/bin", "/usr/bin"]

/-- A program of the machine by its path. -/
def systemProgramAt? (path : PathText) : Option SystemProgram :=
  if searchDirectories.contains ((Path.parent? path).getD "") then
    (Path.fileName? path).bind systemProgram?
  else none

/-- The first line of a script after its mark, cut into the interpreter and one argument. -/
def interpreter? (content : ByteArray) : Option (String × Option String) :=
  match (Utf8.decodeLossy content).toList with
  | '#' :: '!' :: rest =>
      let isGap (c : Char) : Bool := c == ' ' || c == '\t'
      let line := (rest.takeWhile (· != '\n')).dropWhile isGap
      let path := line.takeWhile fun c => !isGap c
      let argument := (((line.drop path.length).dropWhile isGap).reverse.dropWhile isGap).reverse
      if path.isEmpty then none
      else
        some (String.ofList path,
          if argument.isEmpty then none else some (String.ofList argument))
  | _ => none

/-- A process that did nothing but end. -/
def ended (status : Nat) (fs : FileSystem) : Shell.Finished :=
  { ending := .exited status, errors := ByteArray.empty, fs }

/-- Runs a script with the interpreter that its first line names. -/
def runWith (fs : FileSystem) (program : Option SystemProgram) (argument : Option String)
    (script : ByteArray) (path : PathText) (arguments : List String) :
    Except LaunchError Shell.Finished :=
  match program with
  | none => .error .missing
  | some .shell => .ok (Shell.runScript (Utf8.decodeLossy script) path arguments fs)
  | some .succeed => .ok (ended 0 fs)
  | some .fail => .ok (ended 1 fs)
  | some .viaName =>
      match argument.bind systemProgram? with
      | some .shell => .ok (Shell.runScript (Utf8.decodeLossy script) path arguments fs)
      | some .succeed => .ok (ended 0 fs)
      | some .fail => .ok (ended 1 fs)
      | _ => .ok (ended 127 fs)

/-- Runs a program of the machine. A shell is given the name of a script that it cannot open. -/
def runSystem (fs : FileSystem) (program : SystemProgram) (path : PathText)
    (arguments : List String) : Shell.Finished :=
  match program with
  | .succeed => ended 0 fs
  | .fail => ended 1 fs
  | .viaName => ended 127 fs
  | .shell =>
      { ending := .exited 2
        errors := Utf8.encode
          (path ++ ": 0: cannot open " ++ arguments.head?.getD "" ++ ": No such file\n")
        fs }

/-- Launches the program that a path leads to. -/
def runPath (fs : FileSystem) (path : PathText) (arguments : List String) :
    Except LaunchError Shell.Finished :=
  match systemProgramAt? path with
  | some program => .ok (runSystem fs program path arguments)
  | none =>
      match fs.resolve path with
      | .error .notFound => .error .missing
      | .error e => .error (.failed e.message)
      | .ok (.free _ _) => .error .missing
      | .ok (.found _ .directory) => .error (.failed OsError.permissionDenied.message)
      | .ok (.found _ (.file content executable)) =>
          if !executable then .error (.failed OsError.permissionDenied.message)
          else
            match interpreter? content with
            | none => .error (.failed OsError.badExecutable.message)
            | some (interpreter, argument) =>
                runWith fs (systemProgramAt? interpreter) argument content path arguments

end Launch

/-- Launches a program with arguments and waits for its end. -/
def launch (program : PathText) (arguments : List String) (fs : FileSystem) :
    Except LaunchError Shell.Finished :=
  if (program :: arguments).any fun a => a.toList.contains '\x00' then
    .error (.failed "nul byte found in provided data")
  else if program = "" then .error .missing
  else if program.toList.contains '/' then Launch.runPath fs program arguments
  else
    match Launch.systemProgram? program with
    | some found => .ok (Launch.runSystem fs found program arguments)
    | none => .error .missing

end SdkEvidence
