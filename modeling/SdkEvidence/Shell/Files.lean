import SdkEvidence.Shell.Printing

/-!
# Tools for files

The commands that make, move, remove and show files. A failure is told with the wording of the
system and sets the status; the operands after it are still worked on.
-/
namespace SdkEvidence.Shell

/-- The directory part of a path. -/
def directoryName (path : String) : String :=
  match (path.toList.reverse.dropWhile (· == '/')).dropWhile (· != '/') with
  | [] => if path.toList.head? = some '/' then "/" else "."
  | rest =>
      let above := (rest.dropWhile (· == '/')).reverse
      if above.isEmpty then "/" else String.ofList above

/-- The last part of a path. -/
def baseName (path : String) : String :=
  let trimmed := path.toList.reverse.dropWhile (· == '/')
  if trimmed.isEmpty then (if path = "" then "" else "/")
  else String.ofList (trimmed.takeWhile (· != '/')).reverse

/-- The last part of a path without a given end. -/
def baseNameWithout (path ending : String) : String :=
  let name := baseName path
  if name ≠ ending ∧ ending.toList.isSuffixOf name.toList then
    String.ofList (name.toList.take (name.length - ending.length))
  else name

/-- Splits the options of a tool from its operands. -/
def options (arguments : List String) : List Char × List String :=
  let isOption (a : String) : Bool := a.toList.head? == some '-' && 1 < a.length
  let flags := arguments.takeWhile isOption
  (flags.flatMap fun a => a.toList.drop 1, arguments.drop flags.length)

/-- Does an operation for each operand. A failure is told after the given words. -/
def forEach (operation : FileSystem → String → FileSystem × Except OsError Unit)
    (told : String → String) : Machine → List String → Machine
  | m, [] => m
  | m, operand :: rest =>
      match operation m.fs operand with
      | (fs, .ok ()) => forEach operation told { m with fs } rest
      | (fs, .error e) =>
          let m := { m with fs }.complain (told operand ++ ": " ++ e.reason)
          forEach operation told (m.withStatus 1) rest

/-- An operation that changes nothing when it fails. -/
def whole (operation : FileSystem → String → Except OsError FileSystem) (fs : FileSystem)
    (operand : String) : FileSystem × Except OsError Unit :=
  match operation fs operand with
  | .ok fs => (fs, .ok ())
  | .error e => (fs, .error e)

/-- A text between quotes. -/
def inQuotes (text : String) : String :=
  "'" ++ text ++ "'"

/-- Creates directories. -/
def makeDirectories (m : Machine) (arguments : List String) : Machine :=
  let (flags, operands) := options arguments
  let make := if flags.contains 'p' then FileSystem.createDirectories
    else whole FileSystem.createDirectory
  forEach make (fun path => "mkdir: cannot create directory " ++ inQuotes path) (m.withStatus 0)
    operands

/-- Creates a file that is missing. -/
def touchFile (fs : FileSystem) (path : String) : Except OsError FileSystem :=
  if fs.pathExists path then .ok fs else fs.writeFile path ByteArray.empty

/-- Creates files that are missing. -/
def touch (m : Machine) (arguments : List String) : Machine :=
  forEach (whole touchFile) (fun path => "touch: cannot touch " ++ inQuotes path) (m.withStatus 0)
    (options arguments).2

/-- Removes what stands at a path. -/
def removePath (recursive quiet : Bool) (fs : FileSystem) (path : String) :
    Except OsError FileSystem :=
  match fs.find? path with
  | some (loc, .directory) => if recursive then .ok (fs.removeTree loc) else .error .isADirectory
  | some (loc, .file _ _) => .ok (fs.removeTree loc)
  | none => if quiet then .ok fs else .error .notFound

/-- Removes files, and directories with all that is below them. -/
def remove (m : Machine) (arguments : List String) : Machine :=
  let (flags, operands) := options arguments
  let recursive := flags.contains 'r' || flags.contains 'R'
  forEach (whole (removePath recursive (flags.contains 'f')))
    (fun path => "rm: cannot remove " ++ inQuotes path) (m.withStatus 0) operands

/-- The place of a node that is put at a path: a directory takes it under its own name. -/
def placeAt (fs : FileSystem) (source target : String) : Except OsError Location := do
  let target := if fs.isDirectory target then Path.join target (baseName source) else target
  match ← fs.resolve target with
  | .found loc (.file _ _) => pure loc
  | .found _ .directory => throw .isADirectory
  | .free loc _ => pure loc

/-- Copies a node with all below it. -/
def copyTree (fs : FileSystem) (source : Location) (target : Location) : FileSystem :=
  fs.nodes.foldl (fun done (loc, node) =>
    match Location.below? source loc with
    | none => done
    | some way =>
        match node, done.get? (target ++ way) with
        | .file content _, some (.file _ executable) =>
            done.put (target ++ way) (.file content executable)
        | node, _ => done.put (target ++ way) node) fs

/-- Tells why a tool failed. -/
def failWith (m : Machine) (told : String) (e : OsError) : Machine :=
  (m.complain (told ++ ": " ++ e.reason)).withStatus 1

/-- Copies a file or a tree to a path. -/
def copyTo (m : Machine) (arguments : List String) : Machine :=
  let (flags, operands) := options arguments
  let recursive := flags.any "rRa".toList.contains
  match operands with
  | [source, target] =>
      match m.fs.find? source with
      | none => failWith m ("cp: cannot stat " ++ inQuotes source) .notFound
      | some (loc, node) =>
          if node = .directory ∧ !recursive then
            let told := "cp: -r not specified; omitting directory " ++ inQuotes source
            (m.complain told).withStatus 1
          else
            match placeAt m.fs source target with
            | .ok place => { m with fs := copyTree m.fs loc place, status := 0 }
            | .error e => failWith m ("cp: cannot create regular file " ++ inQuotes target) e
  | _ => (m.complain "cp: missing operand").withStatus 1

/-- Moves a file or a tree to a path. -/
def moveTo (m : Machine) (arguments : List String) : Machine :=
  match (options arguments).2 with
  | [source, target] =>
      match m.fs.find? source with
      | none => failWith m ("mv: cannot stat " ++ inQuotes source) .notFound
      | some (loc, _) =>
          match placeAt m.fs source target with
          | .ok place =>
              let moved :=
                if place = loc then m.fs
                else (copyTree (m.fs.removeTree place) loc place).removeTree loc
              { m with fs := moved, status := 0 }
          | .error e =>
              failWith m ("mv: cannot move " ++ inQuotes source ++ " to " ++ inQuotes target) e
  | _ => (m.complain "mv: missing operand").withStatus 1

/-- Removes an empty directory. -/
def removeEmpty (fs : FileSystem) (path : String) : Except OsError FileSystem :=
  match fs.find? path with
  | some (loc, .directory) =>
      if (fs.entries loc).isEmpty then .ok (fs.removeTree loc) else .error .alreadyExists
  | some (_, .file _ _) => .error .notADirectory
  | none => .error .notFound

/-- Takes all of the input. -/
def takeInput (m : Machine) : Machine × ByteArray :=
  ({ m with input := ByteArray.empty }, m.input)

/-- Goes through the contents of files, or of the input where none are named. -/
def forEachContent (tool : String) (failure : String → String)
    (use : Machine → String → ByteArray → Machine) (m : Machine) (files : List String) : Machine :=
  let one (m : Machine) (file : String) : Machine :=
    if file = "-" then
      let (m, content) := takeInput m
      use m "" content
    else
      match m.fs.readFile file with
      | .ok content => use m (" " ++ file) content
      | .error e => (m.complain (tool ++ ": " ++ failure file ++ ": " ++ e.reason)).withStatus 1
  (if files.isEmpty then ["-"] else files).foldl one (m.withStatus 0)

/-- Prints contents one after another. -/
def concatenate (m : Machine) (arguments : List String) : Machine :=
  forEachContent "cat" id (fun m _ content => m.print content) m arguments

/-- The lines of a content, each with its line end. -/
def linesOf : List UInt8 → List (List UInt8)
  | [] => []
  | b :: rest =>
      if b = 10 then [b] :: linesOf rest
      else
        match linesOf rest with
        | [] => [[b]]
        | line :: more => (b :: line) :: more

/-- How much of a content is shown: a number of lines or of bytes. -/
structure Share where
  count : Nat
  ofBytes : Bool
  files : List String

/-- Reads how much is shown from the arguments; ten lines where nothing is said. -/
def Share.read (arguments : List String) : Share :=
  let stated (ofBytes : Bool) (n : String) (files : List String) : Share :=
    { count := (natural? n).getD 10, ofBytes, files }
  match arguments with
  | "-n" :: n :: files => stated false n files
  | "-c" :: n :: files => stated true n files
  | first :: files =>
      match first.toList with
      | '-' :: 'n' :: n => stated false (String.ofList n) files
      | '-' :: 'c' :: n => stated true (String.ofList n) files
      | '-' :: n =>
          match natural? (String.ofList n) with
          | some count => { count, ofBytes := false, files }
          | none => { count := 10, ofBytes := false, files := first :: files }
      | _ => { count := 10, ofBytes := false, files := first :: files }
  | [] => { count := 10, ofBytes := false, files := [] }

/-- The start of a content, or its end. -/
def Share.apply (share : Share) (fromEnd : Bool) (content : ByteArray) : ByteArray :=
  let bytes := content.toList
  let cut {α : Type} (items : List α) : List α :=
    if fromEnd then items.drop (items.length - share.count) else items.take share.count
  (if share.ofBytes then cut bytes else (cut (linesOf bytes)).flatten).toByteArray

/-- Prints the starts of contents, or their ends. -/
def showShare (tool : String) (fromEnd : Bool) (m : Machine) (arguments : List String) : Machine :=
  let share := Share.read arguments
  forEachContent tool (fun file => "cannot open " ++ inQuotes file ++ " for reading")
    (fun m _ content => m.print (share.apply fromEnd content)) m share.files

/-- Prints how many bytes or lines contents have. -/
def countContent (m : Machine) (arguments : List String) : Machine :=
  let (flags, files) := options arguments
  let size (content : ByteArray) : Nat :=
    if flags.contains 'l' then content.toList.count 10 else content.size
  forEachContent "wc" id (fun m name content => m.printLine (toString (size content) ++ name)) m
    files

/-- Prints the input and keeps it in files. -/
def tee (m : Machine) (arguments : List String) : Machine :=
  let (flags, files) := options arguments
  let (m, content) := takeInput m
  let keep (fs : FileSystem) (path : String) : Except OsError FileSystem :=
    if flags.contains 'a' then
      (fs.writeFile path content).map fun _ => Machine.appendTo fs path content
    else fs.writeFile path content
  forEach (whole keep) (fun path => "tee: " ++ path) ((m.print content).withStatus 0) files

/-- Prints the names in a directory, in order. -/
def listDirectory (m : Machine) (arguments : List String) : Machine :=
  let one (m : Machine) (path : String) : Machine :=
    match m.fs.find? path with
    | some (loc, .directory) =>
        let names := ((m.fs.entries loc).map Prod.fst).filter fun n => n.toList.head? != some '.'
        (names.mergeSort fun a b => decide (a ≤ b)).foldl Machine.printLine m
    | some (_, .file _ _) => m.printLine path
    | none =>
        (failWith m ("ls: cannot access " ++ inQuotes path) .notFound).withStatus 2
  let operands := (options arguments).2
  (if operands.isEmpty then ["."] else operands).foldl one (m.withStatus 0)

end SdkEvidence.Shell
