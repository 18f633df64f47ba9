import SdkEvidence.Shell.Expansion
import SdkEvidence.Shell.Pattern
import SdkEvidence.Shell.Tool

/-!
# Running scripts

Commands are run one after another on the state of the script, with a bound on the depth of what
is run. A script that has stopped runs nothing more.
-/
namespace SdkEvidence.Shell

/-- Where a stream goes now. -/
def sinkOf (m : Machine) (stream : Nat) : Sink :=
  if stream = 1 then m.outputSink else if stream = 2 then m.errorSink else .nowhere

/-- Makes a stream go somewhere. -/
def setSink (m : Machine) (stream : Nat) (sink : Sink) : Machine :=
  if stream = 1 then { m with outputSink := sink }
  else if stream = 2 then { m with errorSink := sink }
  else m

/-- Opens the target of a redirection. -/
def openSink (m : Machine) (stream : Nat) (path : PathText) (emptied : Bool) :
    Except OsError Machine :=
  match path with
  | "/dev/null" => .ok (setSink m stream .nowhere)
  | "/dev/stdout" => .ok (setSink m stream m.outputSink)
  | "/dev/stderr" => .ok (setSink m stream m.errorSink)
  | _ => do
      let content := match m.fs.readFile path with
        | .ok old => if emptied then ByteArray.empty else old
        | .error _ => ByteArray.empty
      let fs ← m.fs.writeFile path content
      let fixed := Path.join (Machine.pathOf m.fs.current) path
      pure (setSink { m with fs } stream (.file fixed))

/-- The wording for a target that cannot be opened. -/
def creationFailure : OsError → String
  | .notFound | .notADirectory => "Directory nonexistent"
  | e => e.reason

/-- The wording for an input that cannot be opened. -/
def openingFailure : OsError → String
  | .notFound | .notADirectory => "No such file"
  | e => e.reason

/-- The content of an input. -/
def openInput (m : Machine) (path : PathText) : Except OsError ByteArray :=
  if path = "/dev/null" then .ok ByteArray.empty
  else if m.fs.isDirectory path then .ok ByteArray.empty
  else m.fs.readFile path

/-- The value of a parameter. One that is not set ends the script if it is set to do so. -/
def valueChecked (m : Machine) (name : String) : Machine × String :=
  match parameter? m name with
  | some value => (m, value)
  | none =>
      if m.strict.unset then (m.abandon (name ++ ": parameter not set"), "") else (m, "")

/-- Gives variables back the values that they had in another state. -/
def restoreVariables (saved m : Machine) (names : List String) : Machine :=
  names.foldl (fun m name =>
    match saved.bindings.lookup name with
    | some value => m.setVariable name value
    | none => m.unsetVariable name) m

/-- Whether redirections change the input. -/
def changesInput (redirections : List Redirection) : Bool :=
  redirections.any fun r => r matches .read _ || r matches .here _

/-- Gives back the streams of another state. An input that was not changed stays as it is read. -/
def restoreStreams (saved m : Machine) (redirections : List Redirection) : Machine :=
  let m := { m with outputSink := saved.outputSink, errorSink := saved.errorSink }
  if changesInput redirections then { m with input := saved.input } else m

mutual

/-- Expands a word onto fields. -/
def expandParts : Nat → Machine → Fields → Word → Machine × Fields
  | 0, m, f, _ => (m, f)
  | _ + 1, m, f, [] => (m, f)
  | fuel + 1, m, f, part :: rest =>
      let separators := (m.valueOf "IFS").toList
      let add (m : Machine) (quoted : Bool) (value : String) : Machine × Fields :=
        let chars := value.toList
        expandParts fuel m (if quoted then f.join chars else f.split separators chars) rest
      match part with
      | .text chars _ => expandParts fuel m (f.join chars) rest
      | .parameter "@" true | .braced ['@'] true => expandParts fuel m (f.joinList m.arguments) rest
      | .parameter "@" false | .parameter "*" false =>
          expandParts fuel m (f.splitList separators m.arguments) rest
      | .parameter name quoted =>
          let (m, value) := valueChecked m name
          add m quoted value
      | .braced inner quoted =>
          let (m, value) := braced fuel m inner
          add m quoted value
      | .sum text quoted =>
          let (m, expression) := expandInner fuel m text
          match arithmetic m expression.toList with
          | some n => add m quoted (toString n)
          | none => (m.abandon "arithmetic expression: expecting primary", f)
      | .output script quoted =>
          let (m, value) := capture fuel m script
          add m quoted value

/-- The value of what stands in braces. -/
def braced : Nat → Machine → List Char → Machine × String
  | 0, m, _ => (m, "")
  | fuel + 1, m, text =>
      match text with
      | '#' :: c :: name =>
          let (m, value) := valueChecked m (String.ofList (c :: name))
          (m, toString value.length)
      | text =>
          let (nameChars, operation) := bracedName text
          let name := String.ofList nameChars
          let value := parameter? m name
          let choose (isThere : Bool) (operator : Char) (missing : String) (word : List Char) :
              Machine × String :=
            match operator with
            | '-' => if isThere then (m, value.getD "") else expandInner fuel m word
            | '+' => if isThere then expandInner fuel m word else (m, "")
            | '=' =>
                if isThere then (m, value.getD "")
                else
                  let (m, new) := expandInner fuel m word
                  (m.setVariable name new, new)
            | _ =>
                if isThere then (m, value.getD "")
                else
                  let (m, reason) := expandInner fuel m word
                  let reason := if word.isEmpty then missing else reason
                  (m.abandon (name ++ ": " ++ reason), "")
          let trim (cut : List Char → List Char → List Char) (word : List Char) :
              Machine × String :=
            let (m, pattern) := expandPattern fuel m ((wordOfPattern? word).getD [])
            let (m, value) := valueChecked m name
            (m, String.ofList (cut pattern.toList value.toList))
          match operation with
          | [] => if name = "" then (m.abandon "Bad substitution", "") else valueChecked m name
          | ':' :: c :: word =>
              if "-+=?".toList.contains c then
                choose (value.getD "" != "") c "parameter not set or null" word
              else (m.abandon "Bad substitution", "")
          | '#' :: '#' :: word => trim (trimStart true) word
          | '#' :: word => trim (trimStart false) word
          | '%' :: '%' :: word => trim (trimEnd true) word
          | '%' :: word => trim (trimEnd false) word
          | c :: word =>
              if "-+=?".toList.contains c then choose value.isSome c "parameter not set" word
              else (m.abandon "Bad substitution", "")

/-- Expands a text in which only expansions count. -/
def expandInner : Nat → Machine → List Char → Machine × String
  | 0, m, _ => (m, "")
  | fuel + 1, m, text =>
      match wordOf? text with
      | some word => expandText fuel m word
      | none => (m.abandon "Bad substitution", "")

/-- Runs a script apart and takes what it prints. -/
def capture : Nat → Machine → List Char → Machine × String
  | 0, m, _ => (m, "")
  | fuel + 1, m, script =>
      match read? m.line script with
      | none => (m.abandon "Syntax error", "")
      | some command =>
          let inner := run fuel command
            { m with output := ByteArray.empty, outputSink := .output, depth := 0 }
          (m.after inner,
            String.ofList (dropFinalLines (Utf8.decodeLossy inner.output).toList))

/-- Expands words to fields. -/
def expandWords : Nat → Machine → List Word → Machine × List String
  | 0, m, _ => (m, [])
  | _ + 1, m, [] => (m, [])
  | fuel + 1, m, word :: rest =>
      let (m, fields) := expandParts fuel m .empty word
      if m.stop.isSome then (m, fields.toList)
      else
        let (m, more) := expandWords fuel m rest
        (m, fields.toList ++ more)

/-- Expands a word to one text. -/
def expandText : Nat → Machine → Word → Machine × String
  | 0, m, _ => (m, "")
  | fuel + 1, m, word =>
      let (m, fields) := expandParts fuel m .empty (word.map Part.inQuotes)
      (m, (fields.toList.head?).getD "")

/-- Expands a word to a pattern. What is quoted stands for itself. -/
def expandPattern : Nat → Machine → Word → Machine × String
  | 0, m, _ => (m, "")
  | _ + 1, m, [] => (m, "")
  | fuel + 1, m, part :: rest =>
      let isQuoted := match part with
        | .text _ quoted | .parameter _ quoted | .braced _ quoted | .output _ quoted
        | .sum _ quoted => quoted
      let (m, first) := expandText fuel m [part]
      let first := if isQuoted then String.ofList (escapePattern first.toList) else first
      let (m, more) := expandPattern fuel m rest
      (m, first ++ more)

/-- Makes assignments. -/
def assign : Nat → Machine → List (String × Word) → Machine
  | 0, m, _ => m
  | _ + 1, m, [] => m
  | fuel + 1, m, (name, word) :: rest =>
      let (m, value) := expandText fuel m word
      assign fuel (m.setVariable name value) rest

/-- Makes redirections in order; tells whether all could be opened. -/
def redirect : Nat → Machine → List Redirection → Machine × Bool
  | 0, m, _ => (m, false)
  | _ + 1, m, [] => (m, true)
  | fuel + 1, m, redirection :: rest =>
      let opened (stream : Nat) (word : Word) (emptied : Bool) : Machine × Bool :=
        let (m, path) := expandText fuel m word
        match openSink m stream path emptied with
        | .ok m => redirect fuel m rest
        | .error e =>
            (m.complainHere ("cannot create " ++ path ++ ": " ++ creationFailure e), false)
      match redirection with
      | .write stream target => opened stream target true
      | .append stream target => opened stream target false
      | .copy stream source => redirect fuel (setSink m stream (sinkOf m source)) rest
      | .here content =>
          let (m, text) := expandText fuel m content
          redirect fuel { m with input := Utf8.encode text } rest
      | .read source =>
          let (m, path) := expandText fuel m source
          match openInput m path with
          | .ok input => redirect fuel { m with input } rest
          | .error e => (m.complainHere ("cannot open " ++ path ++ ": " ++ openingFailure e), false)

/-- Runs a command whose failure counts as an answer. -/
def runTested : Nat → Command → Machine → Machine
  | 0, _, m => m.endWith (.killed 9)
  | fuel + 1, command, m =>
      let done := run fuel command { m with strict := { m.strict with tested := true } }
      { done with strict := { done.strict with tested := m.strict.tested } }

/-- Runs a command. -/
def run : Nat → Command → Machine → Machine
  | 0, _, m => m.endWith (.killed 9)
  | fuel + 1, command, m =>
      if m.stop.isSome then m
      else
        match command with
        | .nothing => m
        | .sequence first second => run fuel second (run fuel first m)
        | .both first second =>
            let m := runTested fuel first m
            if m.status = 0 then run fuel second m else m
        | .either first second =>
            let m := runTested fuel first m
            if m.status = 0 then m else run fuel second m
        | .negated body =>
            let m := runTested fuel body m
            if m.stop.isSome then m else m.withStatus (if m.status = 0 then 1 else 0)
        | .pipe first second =>
            let giver := run fuel first
              { m with output := ByteArray.empty, outputSink := .output, depth := 0 }
            let taker := run fuel second
              { m.after giver with input := giver.output, depth := 0, stop := none }
            { m.after taker with output := taker.output }.checked
        | .conditional test yes no =>
            let m := runTested fuel test m
            if m.status = 0 then run fuel yes (m.withStatus 0) else run fuel no (m.withStatus 0)
        | .loop untilTrue test body =>
            let done := runLoop fuel untilTrue test body 0 { m with depth := m.depth + 1 }
            { done with depth := m.depth }
        | .each name words body =>
            let (m, items) := match words with
              | some words => expandWords fuel m words
              | none => (m, m.arguments)
            let done := runEach fuel name items body { m with depth := m.depth + 1, status := 0 }
            { done with depth := m.depth }
        | .choice subject branches =>
            let (m, text) := expandText fuel m subject
            runChoice fuel text branches (m.withStatus 0)
        | .group body redirections =>
            match redirect fuel m redirections with
            | (after, true) => restoreStreams m (run fuel body after) redirections
            | (after, false) => (restoreStreams m (after.withStatus 2) redirections).checked
        | .apart body =>
            let inner := run fuel body { m with depth := 0 }
            { m.after inner with output := inner.output }.checked
        | .define name body =>
            { m with functions := (name, body) :: m.functions, status := 0 }
        | .simple line assignments words redirections =>
            runSimple fuel assignments words redirections { m with line }

/-- Runs a simple command. -/
def runSimple : Nat → List (String × Word) → List Word → List Redirection → Machine → Machine
  | 0, _, _, _, m => m.endWith (.killed 9)
  | fuel + 1, assignments, words, redirections, m =>
      let (m, fields) := expandWords fuel m words
      if m.stop.isSome then m
      else
        match redirect fuel m redirections, fields with
        | (after, false), _ =>
            let failed := restoreStreams m (after.withStatus 2) redirections
            if fields.head?.any specialTools.contains then failed.endWith (.exited 2)
            else failed.checked
        | (after, true), [] =>
            let status := if words.isEmpty then 0 else m.status
            let done := assign fuel (after.withStatus status) assignments
            (restoreStreams m done redirections).checked
        | (after, true), ["exec"] => after.withStatus 0
        | (after, true), name :: arguments =>
            let done := call fuel name arguments (assign fuel after assignments)
            let done := if specialTools.contains name then done
              else restoreVariables m done (assignments.map Prod.fst)
            (restoreStreams m done redirections).checked

/-- Calls a command by name. -/
def call : Nat → String → List String → Machine → Machine
  | 0, _, _, m => m.endWith (.killed 9)
  | fuel + 1, name, arguments, m =>
      let runText (script : String) (m : Machine) : Machine :=
        match read? m.line script.toList with
        | some command => run fuel command m
        | none => m.abandon "Syntax error"
      match m.functions.lookup name, name, arguments with
      | some body, _, _ =>
          let done := run fuel body { m with arguments, depth := 0 }
          let done := { done with arguments := m.arguments, depth := m.depth }
          if done.stop = some .returned then { done with stop := none } else done
      | none, "eval", _ => runText (" ".intercalate arguments) (m.withStatus 0)
      | none, "exec", name :: arguments =>
          if (callTool m name []).isNone && !name.toList.contains '/' && name != "sh" then
            (m.complainHere ("exec: " ++ name ++ ": not found")).endWith (.exited 127)
          else
            let done := call fuel name arguments m
            if done.stop.isSome then done else done.endWith (.exited done.status)
      | none, ".", path :: _ =>
          match m.fs.readFile path with
          | .ok content => runText (Utf8.decodeLossy content) m
          | .error e => m.abandon (".: cannot open " ++ path ++ ": " ++ openingFailure e)
      | none, "command", "-v" :: name :: _ =>
          if (callTool m name []).isSome then (m.printLine name).withStatus 0 else m.withStatus 127
      | none, "command", name :: arguments => call fuel name arguments m
      | none, "sh", "-c" :: script :: rest | none, "/bin/sh", "-c" :: script :: rest =>
          let fresh := { Machine.start m.fs (rest.head?.getD "sh") (rest.drop 1) with
            bindings := m.bindings, input := m.input, output := m.output, errors := m.errors
            outputSink := m.outputSink, errorSink := m.errorSink }
          let inner := runText script fresh
          { m.after inner with output := inner.output }
      | none, _, _ =>
          match callTool m name arguments with
          | some done => done
          | none =>
              if name.toList.contains '/' then runFile fuel name arguments m
              else (m.complainHere (name ++ ": not found")).withStatus 127

/-- Runs the script in a file. -/
def runFile : Nat → String → List String → Machine → Machine
  | 0, _, _, m => m.endWith (.killed 9)
  | fuel + 1, path, arguments, m =>
      match m.fs.find? path with
      | some (_, .file content true) =>
          let fresh := { Machine.start m.fs path arguments with
            bindings := m.bindings, input := m.input, output := m.output, errors := m.errors
            outputSink := m.outputSink, errorSink := m.errorSink }
          let inner := match read? 1 (Utf8.decodeLossy content).toList with
            | some command => run fuel command fresh
            | none => fresh.abandon "Syntax error"
          { m.after inner with output := inner.output }
      | some _ => (m.complainHere (path ++ ": Permission denied")).withStatus 126
      | none => (m.complainHere (path ++ ": not found")).withStatus 127

/-- Runs the turns of a loop. `status` is that of the last turn. -/
def runLoop : Nat → Bool → Command → Command → Nat → Machine → Machine
  | 0, _, _, _, _, m => m.endWith (.killed 9)
  | fuel + 1, untilTrue, test, body, status, m =>
      let (m, goesOn) := (runTested fuel test m).afterTurn
      if !goesOn then m
      else if (m.status == 0) == untilTrue then m.withStatus status
      else
        match (run fuel body m).afterTurn with
        | (m, true) => runLoop fuel untilTrue test body m.status m
        | (m, false) => m

/-- Runs a command for each item. -/
def runEach : Nat → String → List String → Command → Machine → Machine
  | 0, _, _, _, m => m
  | _ + 1, _, [], _, m => m
  | fuel + 1, name, item :: rest, body, m =>
      if m.stop.isSome then m
      else
        match (run fuel body (m.setVariable name item)).afterTurn with
        | (m, true) => runEach fuel name rest body m
        | (m, false) => m

/-- Runs the first branch with a pattern that matches. -/
def runChoice : Nat → String → List (List Word × Command) → Machine → Machine
  | 0, _, _, m => m
  | _ + 1, _, [], m => m
  | fuel + 1, text, (patterns, body) :: rest, m =>
      let fits := patterns.any fun pattern =>
        matchesPattern (expandPattern fuel m pattern).2.toList text.toList
      if fits then run fuel body m else runChoice fuel text rest m

end

/-- How deep commands may be run inside each other, counting the turns of loops. -/
def depthLimit : Nat := 4000

/-- How a script ended, what it wrote to its error stream, and the file system it left. -/
structure Finished where
  ending : Ending
  errors : ByteArray
  fs : FileSystem

/-- Runs a script by its name with arguments. -/
def runScript (script : String) (name : String) (arguments : List String) (fs : FileSystem) :
    Finished :=
  let m := Machine.start fs name arguments
  let done := match read? 1 script.toList with
    | some command => run depthLimit command m
    | none => m.abandon "Syntax error"
  let ended := match done.stop, read? done.line done.farewell.toList with
    | some (.ended (.killed _)), _ | _, none => done
    | some (.ended (.exited status)), some command =>
        let last := run depthLimit command { done with stop := none, status }
        if last.stop.isSome then last else last.endWith (.exited status)
    | _, some command =>
        let last := run depthLimit command done
        if last.stop.isSome then last else last.endWith (.exited done.status)
  let ending := match ended.stop with
    | some (.ended ending) => ending
    | _ => .exited ended.status
  { ending, errors := ended.errors, fs := { ended.fs with current := fs.current } }

end SdkEvidence.Shell
