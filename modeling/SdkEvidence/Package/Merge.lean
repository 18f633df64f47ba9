import SdkEvidence.Action
import SdkEvidence.Package.Extraction
import SdkEvidence.Package.Recompression
import SdkEvidence.Package.SplitName

/-!
# Merging split containers

A split container holds sub-packages. One of them is the base; the others are laid over it in a
fixed order, and the result is one package. The work is done in temporary space, and the output
is replaced only by a complete package.
-/
namespace SdkEvidence

/-- The sub-packages of a container in merge order. -/
structure SplitPlan where
  base : WalkedFile
  architecture : List WalkedFile
  others : List WalkedFile
  deriving DecidableEq

/-- The file name of a walked file. -/
def WalkedFile.name (file : WalkedFile) : String :=
  file.way.getLast?.getD ""

namespace SplitPlan

/-- The files with a role, in walk order. -/
def withRole (role : SplitRole) (files : List WalkedFile) : List WalkedFile :=
  files.filter fun file => SplitName.role? file.name == some role

/-- Whether a name is the usual one of a base package, in any case of its letters. -/
def isUsualBase (file : WalkedFile) : Bool :=
  file.name.toList.map Char.toLower == "base.apk".toList

/-- The position of the base among the packages that are no configuration splits: the first one
with the usual name, or the first of all. -/
def basePosition (bases : List WalkedFile) : Nat :=
  if bases.any isUsualBase then bases.findIdx isUsualBase else 0

/-- The plan for the files of an unpacked container. Packages that are neither the base nor
configuration splits come last. There is no plan without a base. -/
def ofFiles? (files : List WalkedFile) : Option SplitPlan :=
  let bases := withRole .base files
  let position := basePosition bases
  bases[position]?.map fun base =>
    { base
      architecture := withRole .architecture files
      others := withRole .configuration files ++ bases.eraseIdx position }

/-- All sub-packages after the base, in merge order. -/
def overlays (plan : SplitPlan) : List WalkedFile :=
  plan.architecture ++ plan.others

end SplitPlan

/-- A path that a later sub-package overwrote with another content. -/
structure MergeCollision where
  path : String
  overwrittenBy : String
  deriving DecidableEq, Repr

/-- What a merge did. -/
structure MergeOutcome where
  output : PathText
  outputBytes : Nat
  base : String
  architectureSplits : List String
  otherSplits : List String
  entriesWritten : Nat
  collisions : List MergeCollision
  rejectedEntries : List String
  deriving DecidableEq, Repr

namespace Merge

/-- The start of the name of the directory that a merge works in. -/
def scratchLead : String := "sdkprobe-merge-"

/-- The start of the name of the file that becomes the output. -/
def stagedLead : String := ".sdkprobe-merged-"

/-- The collisions that an extraction reports. -/
def collisionsOf (split : String) (done : Extraction) : List MergeCollision :=
  done.overwritten.map fun path => { path, overwrittenBy := split }

/-- Lays sub-packages over the staging directory in order. Gives the collisions and the rejected
names. -/
def overlay (unpacked staging : PathText) :
    List WalkedFile → Action (List MergeCollision × List String)
  | [] => pure ([], [])
  | split :: rest => do
      let done ← Action.step
        (fun e : ExtractionError => .containerExtraction (split.name ++ ": " ++ e.message))
        (extractInto (Path.join unpacked split.relative) staging)
      let (collisions, rejected) ← overlay unpacked staging rest
      pure (collisionsOf split.name done ++ collisions, done.rejected ++ rejected)

/-- The directory that a package is published in. -/
def outputDirectory (output : PathText) : PathText :=
  match Path.parent? output with
  | some parent => if parent = "" then "." else parent
  | none => "."

/-- A package that cannot be published. -/
def publishingFailure (output : PathText) (e : OsError) : Failure :=
  .repackaging (output ++ ": " ++ e.message)

/-- Copies a finished package to a staged file, which then takes the output's name. -/
def moveStaged (assembled output : PathText) (staged : Location) : Action Unit := do
  let package ← Action.step (publishingFailure output) fun fs => (fs, fs.readFile assembled)
  Action.change (publishingFailure output) fun fs => .ok (fs.put staged (.file package false))
  Action.change (publishingFailure output) fun fs => fs.moveFile staged output

/-- Moves a finished package into place. The staged file is made beside the output, so the output is
either the earlier file or the complete new one. -/
def publish (assembled output : PathText) : Action Unit := do
  Action.createDirectories (publishingFailure output) (outputDirectory output)
  Action.withStaged (publishingFailure output) (outputDirectory output) stagedLead
    (moveStaged assembled output)

/-- The size of the file that a path leads to; zero if there is none. -/
def sizeAt (fs : FileSystem) (p : PathText) : Nat :=
  match fs.readFile p with
  | .ok content => content.size
  | .error _ => 0

/-- What was put together in a scratch directory. -/
structure Assembly where
  plan : SplitPlan
  entriesWritten : Nat
  collisions : List MergeCollision
  rejected : List String
  deriving DecidableEq

/-- What is told of a package that was published. -/
def Assembly.outcome (assembly : Assembly) (output : PathText) (outputBytes : Nat) :
    MergeOutcome :=
  { output
    outputBytes
    base := assembly.plan.base.name
    architectureSplits := assembly.plan.architecture.map WalkedFile.name
    otherSplits := assembly.plan.others.map WalkedFile.name
    entriesWritten := assembly.entriesWritten
    collisions := assembly.collisions
    rejectedEntries := assembly.rejected }

/-- The directory of a scratch directory that the container is unpacked in. -/
def unpackedIn (scratch : PathText) : PathText := Path.join scratch "container"

/-- The directory of a scratch directory that the sub-packages are laid over. -/
def stagingIn (scratch : PathText) : PathText := Path.join scratch "staging"

/-- The file of a scratch directory that is the merged package. -/
def assembledIn (scratch : PathText) : PathText := Path.join scratch "merged.apk"

/-- Puts the package of a container together inside a scratch directory. -/
def assemble (scratch container : PathText) : Action Assembly := do
  let unpacked := unpackedIn scratch
  let opened ← Action.step (fun e : ExtractionError => .containerExtraction e.message)
    (extractInto container unpacked)
  let files ← Action.ask fun fs => fs.walkPath unpacked
  match SplitPlan.ofFiles? files with
  | none => throw .noBasePackage
  | some plan =>
      let base ← Action.step (fun e : ExtractionError => .baseExtraction e.message)
        (extractInto (Path.join unpacked plan.base.relative) (stagingIn scratch))
      let (collisions, rejected) ← overlay unpacked (stagingIn scratch) plan.overlays
      let entriesWritten ← Action.step
        (fun e : OsError => .repackaging (Recompression.failureText (assembledIn scratch) e))
        (compressDirectory (stagingIn scratch) (assembledIn scratch))
      pure
        { plan
          entriesWritten
          collisions
          rejected := opened.rejected ++ base.rejected ++ rejected }

/-- Merges a container inside a scratch directory. -/
def mergeIn (scratch container output : PathText) : Action MergeOutcome := do
  let assembly ← assemble scratch container
  let assembled := assembledIn scratch
  let outputBytes ← Action.ask fun fs => sizeAt fs assembled
  if outputBytes = 0 then
    throw (.repackaging ("Merged package " ++ assembled ++ " is missing or empty"))
  publish assembled output
  pure (assembly.outcome output outputBytes)

end Merge

/-- Merges a split container into one package, working below a scratch directory, or below the
usual place for temporary files. -/
def mergeContainer (scratch : Option PathText) (container output : PathText) :
    Action MergeOutcome := do
  if !(← Action.ask fun fs => fs.isFile container) then
    throw (.invalidInput ("Split container not found: " ++ container))
  let parent ← Action.ask fun fs => scratch.getD fs.temporary
  Action.withTemporary parent Merge.scratchLead false fun directory =>
    Merge.mergeIn directory container output

end SdkEvidence
