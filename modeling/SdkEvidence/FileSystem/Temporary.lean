import SdkEvidence.FileSystem.Resolve

/-!
# Temporary files and directories

A temporary file or directory gets a name that nothing else has. A temporary directory lives as
long as the work done in it and is removed with everything below it, however the work ends.
-/
namespace SdkEvidence.FileSystem

/-- The `n`-th candidate for the end of a temporary name: six digits, or more if they are needed. -/
def candidate (n : Nat) : String :=
  let digits := (Nat.toDigits 10 n)
  String.ofList (List.replicate (6 - digits.length) '0' ++ digits)

/-- A name in a directory that starts as asked and that no entry has. The candidates are tried from
the seed on; one of the first `n + 1` is free when there are `n` nodes. -/
def freshName (fs : FileSystem) (dir : Location) (lead : String) : String :=
  let name := fun n => lead ++ candidate (fs.seed + n)
  let free := fun n => (fs.get? (dir ++ [name n])).isNone
  name (((List.range (fs.nodes.length + 1)).find? free).getD 0)

/-- The location that relative paths start from, as a path. -/
def currentPath (fs : FileSystem) : PathText :=
  "/" ++ "/".intercalate fs.current

/-- A place that was made for temporary use. -/
structure Temporary where
  path : PathText
  location : Location
  deriving DecidableEq

/-- Puts a node at a fresh place in the directory that a path leads to. -/
def makeTemporary (fs : FileSystem) (parent : PathText) (lead : String) (node : Node) :
    Except OsError (Temporary × FileSystem) :=
  let above := if Path.isAbsolute parent then parent else Path.join fs.currentPath parent
  match fs.resolve above with
  | .error e => .error e
  | .ok (.free _ _) => .error .notFound
  | .ok (.found _ (.file _ _)) => .error .notADirectory
  | .ok (.found loc .directory) =>
      let name := fs.freshName loc lead
      .ok ({ path := Path.join above name, location := loc ++ [name] },
        fs.put (loc ++ [name]) node)

end SdkEvidence.FileSystem
