import SdkEvidence.Failure
import SdkEvidence.FileSystem.Temporary

/-!
# Actions

An action reads and changes a file system, and ends with a result or a failure. What it changed
before it failed stays changed.
-/
namespace SdkEvidence

/-- An action on a file system. -/
abbrev Action (α : Type) := ExceptT Failure (StateM FileSystem) α

namespace Action

/-- How an action ends in a file system, and what it leaves. -/
def runIn {α : Type} (action : Action α) (fs : FileSystem) : Except Failure α × FileSystem :=
  action.run fs

/-- Reads from the file system. -/
def ask {α : Type} (question : FileSystem → α) : Action α := do
  pure (question (← get))

/-- Does a step that leaves a file system and an outcome, whose error becomes a failure. -/
def step {ε α : Type} (explain : ε → Failure)
    (operation : FileSystem → FileSystem × Except ε α) : Action α := do
  let (fs, outcome) := operation (← get)
  set fs
  match outcome with
  | .ok a => pure a
  | .error e => throw (explain e)

/-- Does an operation that changes nothing when it fails. -/
def change {ε : Type} (explain : ε → Failure)
    (operation : FileSystem → Except ε FileSystem) : Action Unit := do
  match operation (← get) with
  | .ok fs => set fs
  | .error e => throw (explain e)

/-- Creates a directory and the missing ones above it. -/
def createDirectories (explain : OsError → Failure) (p : PathText) : Action Unit :=
  step explain fun fs => fs.createDirectories p

/-- Works in a fresh temporary directory. It is removed at the end, whatever the outcome, unless
it shall be kept. -/
def withTemporary {α : Type} (parent : PathText) (lead : String) (keep : Bool)
    (work : PathText → Action α) : Action α := do
  let (made, fs) ← (match (← get).makeTemporary parent lead .directory with
    | .ok made => pure made
    | .error e => throw (.ofOsError e) : Action (FileSystem.Temporary × FileSystem))
  let (outcome, fs) := (work made.path).runIn fs
  set (if keep then fs else fs.removeTree made.location)
  match outcome with
  | .ok a => pure a
  | .error e => throw e

/-- Works with a fresh temporary file, which is removed if the work fails. Work that succeeds has
moved it to its place. -/
def withStaged {α : Type} (explain : OsError → Failure) (parent : PathText) (lead : String)
    (work : Location → Action α) : Action α := do
  let (made, fs) ← (match (← get).makeTemporary parent lead (.file ByteArray.empty false) with
    | .ok made => pure made
    | .error e => throw (explain e) : Action (FileSystem.Temporary × FileSystem))
  let (outcome, fs) := (work made.location).runIn fs
  match outcome with
  | .ok a =>
      set fs
      pure a
  | .error e =>
      set (fs.removeTree made.location)
      throw e

end Action
end SdkEvidence
