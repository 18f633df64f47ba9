import SdkEvidence.Shell.Files
import SdkEvidence.Shell.Testing

/-!
# Tools

The commands that scripts call by name and that run no other command. Each takes its arguments and
changes the state.
-/
namespace SdkEvidence.Shell

/-- The number of a signal by its name or number. -/
def signal? (text : String) : Option Nat :=
  match text with
  | "HUP" | "1" => some 1
  | "INT" | "2" => some 2
  | "QUIT" | "3" => some 3
  | "ILL" | "4" => some 4
  | "TRAP" | "5" => some 5
  | "ABRT" | "6" => some 6
  | "BUS" | "7" => some 7
  | "FPE" | "8" => some 8
  | "KILL" | "9" => some 9
  | "USR1" | "10" => some 10
  | "SEGV" | "11" => some 11
  | "USR2" | "12" => some 12
  | "PIPE" | "13" => some 13
  | "ALRM" | "14" => some 14
  | "TERM" | "15" => some 15
  | _ => none

/-- Ends the script by a signal that it sends itself. The signal zero only asks whether it
runs. -/
def kill (m : Machine) (arguments : List String) : Machine :=
  let send (stated : String) (targets : List String) : Machine :=
    if targets.isEmpty then (m.complainHere "kill: usage: kill [-s sigspec] pid").withStatus 2
    else if stated = "0" then m.withStatus 0
    else
      let name := if "SIG".toList.isPrefixOf stated.toList then (stated.drop 3).toString else stated
      match signal? name with
      | some n => m.endWith (.killed n)
      | none => (m.complainHere ("kill: invalid signal number or name: " ++ stated)).withStatus 2
  match arguments with
  | "-s" :: name :: targets => send name targets
  | first :: targets =>
      match first.toList with
      | '-' :: rest => send (String.ofList rest) targets
      | _ => send "TERM" arguments
  | [] => send "TERM" []

/-- Ends the script with a status. -/
def finish (m : Machine) (arguments : List String) : Machine :=
  match arguments with
  | [] => m.endWith (.exited m.status)
  | first :: _ =>
      match natural? first with
      | some n => m.endWith (.exited (n % 256))
      | none => m.abandon ("exit: Illegal number: " ++ first)

/-- Returns from a function with a status. -/
def leave (m : Machine) (arguments : List String) : Machine :=
  match arguments with
  | [] => { m with stop := some .returned }
  | first :: _ =>
      match natural? first with
      | some n => { m with stop := some .returned, status := n % 256 }
      | none => m.abandon ("return: Illegal number: " ++ first)

/-- Leaves loops, or begins their next turns. Outside of loops nothing happens. -/
def leaveLoops (m : Machine) (stop : Nat → Stop) (arguments : List String) : Machine :=
  let levels := min ((arguments.head?.bind natural?).getD 1) m.depth
  if levels = 0 then m.withStatus 0 else { m with stop := some (stop levels), status := 0 }

/-- Drops the first arguments of the script. -/
def shift (m : Machine) (arguments : List String) : Machine :=
  match natural? (arguments.head?.getD "1") with
  | none => m.abandon ("shift: Illegal number: " ++ arguments.head?.getD "")
  | some count =>
      if m.arguments.length < count then m.abandon "shift: can't shift that many"
      else { m with arguments := m.arguments.drop count, status := 0 }

/-- Changes what a script does on failures, and its arguments. -/
def setOptions (m : Machine) : List String → Machine
  | [] => m.withStatus 0
  | "--" :: rest => { m with arguments := rest, status := 0 }
  | first :: rest =>
      let set (on : Bool) (flags : List Char) : Machine :=
        { m with
          strict := { m.strict with
            failures := if flags.contains 'e' then on else m.strict.failures
            unset := if flags.contains 'u' then on else m.strict.unset } }
      match first.toList with
      | '-' :: flags => setOptions (set true flags) rest
      | '+' :: flags => setOptions (set false flags) rest
      | _ => { m with arguments := first :: rest, status := 0 }

/-- Goes to a directory. -/
def changeDirectory (m : Machine) (arguments : List String) : Machine :=
  match arguments with
  | [] => m.withStatus 0
  | path :: _ =>
      match m.fs.directory? path with
      | some loc =>
          let there := { m with fs := { m.fs with current := loc }, status := 0 }
          there.setVariable "PWD" (Machine.pathOf loc)
      | none => (m.complainHere ("cd: can't cd to " ++ path)).withStatus 2

/-- Makes bindings of arguments that state a value. -/
def setStated (m : Machine) (arguments : List String) : Machine :=
  (arguments.foldl (fun m argument =>
    let chars := argument.toList
    let name := chars.takeWhile (· != '=')
    match chars.drop name.length with
    | _ :: value => m.setVariable (String.ofList name) (String.ofList value)
    | [] => m) m).withStatus 0

/-- Takes the next line of the input. -/
def takeLine (m : Machine) : Machine × Option (List Char) :=
  match linesOf m.input.toList with
  | [] => (m, none)
  | line :: rest =>
      let text := (Utf8.decodeLossy (line.filter (· != 10)).toByteArray).toList
      let ended := line.contains 10
      ({ m with input := rest.flatten.toByteArray, status := if ended then 0 else 1 }, some text)

/-- Gives the words of a line to names; the last name takes all that is left. -/
def bindWords (separators : List Char) (m : Machine) : List String → List Char → Machine
  | [], _ => m
  | [name], line =>
      let isGap (c : Char) : Bool := separators.contains c && " \t\n".toList.contains c
      let trimmed := ((line.dropWhile isGap).reverse.dropWhile isGap).reverse
      m.setVariable name (String.ofList trimmed)
  | name :: names, line =>
      let line := line.dropWhile separators.contains
      let word := line.takeWhile fun c => !separators.contains c
      let rest := line.drop (word.length + 1)
      bindWords separators (m.setVariable name (String.ofList word)) names rest

/-- Reads a line of the input into names. -/
def readInput (m : Machine) (arguments : List String) : Machine :=
  let names := arguments.filter fun a => a.toList.head? != some '-'
  match takeLine m with
  | (m, some line) => bindWords (m.valueOf "IFS").toList m names line
  | (m, none) => (names.foldl (fun m name => m.setVariable name "") m).withStatus 1

/-- Keeps what a script says at its end. Other events are not waited for. -/
def trap (m : Machine) (arguments : List String) : Machine :=
  match arguments with
  | ["-", _] => { m with farewell := "", status := 0 }
  | [script, "EXIT"] | [script, "0"] => { m with farewell := script, status := 0 }
  | _ => m.withStatus 0

/-- The tools that do nothing that counts here. -/
def idleTools : List String :=
  [":", "true", "/bin/true", "/usr/bin/true", "sleep", "sync", "chmod", "umask", "ulimit", "wait"]

/-- Calls a tool by name; none if there is no such tool. -/
def callTool (m : Machine) (name : String) (arguments : List String) : Option Machine :=
  if idleTools.contains name then some (m.withStatus 0)
  else
    match name with
    | "false" | "/bin/false" | "/usr/bin/false" => some (m.withStatus 1)
    | "echo" | "/bin/echo" => some (echo m arguments)
    | "printf" => some (printf m arguments)
    | "seq" => some (printSequence m arguments)
    | "expr" => some (evaluate m arguments)
    | "test" | "[" => some (Test.run m name arguments)
    | "exit" => some (finish m arguments)
    | "return" => some (leave m arguments)
    | "break" => some (leaveLoops m .loops arguments)
    | "continue" => some (leaveLoops m .turns arguments)
    | "shift" => some (shift m arguments)
    | "set" => some (setOptions m arguments)
    | "export" | "readonly" | "local" => some (setStated m arguments)
    | "unset" => some ((arguments.foldl Machine.unsetVariable m).withStatus 0)
    | "trap" => some (trap m arguments)
    | "read" => some (readInput m arguments)
    | "cd" => some (changeDirectory m arguments)
    | "pwd" => some ((m.printLine (Machine.pathOf m.fs.current)).withStatus 0)
    | "dirname" =>
        some ((arguments.map directoryName).foldl Machine.printLine (m.withStatus 0))
    | "basename" =>
        some ((m.printLine (match arguments with
          | [path, ending] => baseNameWithout path ending
          | _ => baseName (arguments.head?.getD ""))).withStatus 0)
    | "mkdir" => some (makeDirectories m arguments)
    | "rmdir" =>
        some (forEach (whole removeEmpty) (fun path => "rmdir: failed to remove " ++ inQuotes path)
          (m.withStatus 0) (options arguments).2)
    | "touch" => some (touch m arguments)
    | "rm" => some (remove m arguments)
    | "cp" => some (copyTo m arguments)
    | "mv" => some (moveTo m arguments)
    | "ls" => some (listDirectory m arguments)
    | "cat" | "/bin/cat" => some (concatenate m arguments)
    | "head" => some (showShare "head" false m arguments)
    | "tail" => some (showShare "tail" true m arguments)
    | "wc" => some (countContent m arguments)
    | "tee" => some (tee m arguments)
    | "kill" => some (kill m arguments)
    | _ => none

/-- The commands of the shell itself that end a script when their streams cannot be opened. -/
def specialTools : List String :=
  [":", ".", "break", "continue", "eval", "exec", "exit", "export", "readonly", "return", "set",
    "shift", "times", "trap", "unset"]

end SdkEvidence.Shell
