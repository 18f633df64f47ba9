import SdkEvidence.CommandLine.Run
import Std.Time.DateTime.Timestamp

/-!
# The program

Takes what a command looks at from the machine, runs the command on it, and brings what the
command changed back to the machine.
-/
namespace SdkEvidence.Main

/-- Takes over what stands at a location of the machine, with all below it if `deep`. -/
partial def take (deep : Bool) (fs : FileSystem) (loc : Location) : IO FileSystem := do
  try
    let path ← IO.FS.realPath (CommandLine.pathOf loc)
    if ← path.isDir then
      let mut fs := fs.put loc .directory
      if deep then
        for entry in ← path.readDir do
          fs ← take deep fs (loc ++ [entry.fileName])
      return fs
    else
      return fs.put loc (.file (← IO.FS.readBinFile path) true)
  catch _ => return fs

/-- Takes over what stands on the way to a path and at its end. -/
def takeWay (deep : Bool) (fs : FileSystem) (path : PathText) : IO FileSystem := do
  let loc := CommandLine.locationOf fs.current path
  let mut fs := fs
  for n in List.range loc.length do
    fs ← take (deep && n + 1 == loc.length) fs (loc.take (n + 1))
  return fs

/-- Writes a node to the machine, if it is new or has another content. -/
def bring (before : FileSystem) (loc : Location) (node : Node) : IO Unit := do
  let path := CommandLine.pathOf loc
  match node with
  | .directory => if (before.get? loc).isNone then IO.FS.createDirAll path
  | .file content _ =>
      let same := match before.get? loc with
        | some (.file old _) => old == content
        | _ => false
      if !same then IO.FS.writeBinFile path content

/-- Brings what was changed to the machine. -/
def bringAll (before after : FileSystem) : IO Unit := do
  for (loc, node) in after.nodes do
    bring before loc node
  for (loc, node) in before.nodes do
    match node, after.get? loc with
    | .file _ _, none => IO.FS.removeFile (CommandLine.pathOf loc)
    | _, _ => pure ()

/-- The moment that it is. -/
def now : IO Timestamp := do
  let nanoseconds := (← Std.Time.Timestamp.now).toNanosecondsSinceUnixEpoch.val.toNat
  return .afterEpoch (nanoseconds / 1000000000) (nanoseconds % 1000000000)

/-- The part of the machine that a command looks at. -/
def surroundings (command : CommandLine.Command) : IO FileSystem := do
  let current := CommandLine.locationOf [] (← IO.currentDir).toString
  let temporary := (← IO.getEnv "TMPDIR").getD "/tmp"
  let seed ← IO.rand 0 999999
  let mut fs : FileSystem := { nodes := [], current, temporary, seed }
  for path in [".", temporary] ++ command.configurationFile.toList do
    fs ← takeWay false fs path
  let footprint := command.footprint (command.settings fs)
  for path in footprint.read do
    fs ← takeWay true fs path
  for path in footprint.written do
    fs ← takeWay false fs path
  return fs

end SdkEvidence.Main

open SdkEvidence in
def main (arguments : List String) : IO UInt32 := do
  let before ← match CommandLine.read arguments with
    | .ok command => Main.surroundings command
    | .error _ => pure .empty
  let (printed, after) := CommandLine.run arguments (← Main.now) before
  Main.bringAll before after
  IO.print printed.output
  IO.eprint printed.errors
  return printed.status.toUInt32
