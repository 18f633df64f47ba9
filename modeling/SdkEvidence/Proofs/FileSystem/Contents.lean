import Mathlib.Data.List.Forall2
import SdkEvidence.FileSystem.Walk

/-!
# Other contents in the same files

When only the contents of files are changed, every path still leads to the same place
(`find?_withContents`), directories have the same entries, and a walk meets the same files with
their new contents (`walkPath_withContents`).
-/
namespace SdkEvidence

/-- The node with its content changed, if it is a file. -/
def Node.withContent (change : ByteArray → ByteArray) : Node → Node
  | .directory => .directory
  | .file content executable => .file (change content) executable

theorem Node.withContent_eq_directory {change : ByteArray → ByteArray} {node : Node} :
    node.withContent change = .directory ↔ node = .directory := by
  cases node <;> simp [withContent]

namespace FileSystem

/-- The file system with the content of each file changed, and nothing else. -/
def withContents (fs : FileSystem) (change : Location → ByteArray → ByteArray) : FileSystem :=
  { fs with nodes := fs.nodes.map fun entry => (entry.1, entry.2.withContent (change entry.1)) }

variable (fs : FileSystem) (change : Location → ByteArray → ByteArray)

theorem get?_withContents (loc : Location) :
    (fs.withContents change).get? loc = (fs.get? loc).map (Node.withContent (change loc)) := by
  unfold get? withContents
  split
  next => rfl
  next =>
    dsimp only
    induction fs.nodes with
    | nil => rfl
    | cons entry rest ih =>
      obtain ⟨key, node⟩ := entry
      rw [List.map_cons, List.lookup_cons, List.lookup_cons]
      by_cases hkey : loc = key
      · simp [hkey]
      · simpa [beq_eq_false_iff_ne.mpr hkey] using ih

end FileSystem

/-- What a path leads to once contents are changed. -/
def Target.withContents (change : Location → ByteArray → ByteArray) : Target → Target
  | .found loc node => .found loc (node.withContent (change loc))
  | .free loc slash => .free loc slash

namespace FileSystem

variable (fs : FileSystem) (change : Location → ByteArray → ByteArray)

theorem follow_withContents (place : Location) (segments : List String) :
    (fs.withContents change).follow place segments
      = (fs.follow place segments).map (Target.withContents change) := by
  induction segments generalizing place with
  | nil =>
    unfold follow
    rw [get?_withContents]
    cases fs.get? place <;> rfl
  | cons segment rest ih =>
    unfold follow
    rw [get?_withContents]
    cases hnode : fs.get? place with
    | none => rfl
    | some node =>
      cases node with
      | file content executable => rfl
      | directory =>
        dsimp only [Option.map_some, Node.withContent]
        rw [get?_withContents, Option.isSome_map]
        repeat' split
        all_goals first
          | exact ih _
          | rfl

theorem resolve_withContents (p : PathText) :
    (fs.withContents change).resolve p = (fs.resolve p).map (Target.withContents change) := by
  unfold resolve
  split
  next => rfl
  next =>
    split
    next => rfl
    next => exact follow_withContents fs change _ _

theorem find?_withContents (p : PathText) :
    (fs.withContents change).find? p
      = (fs.find? p).map fun found => (found.1, found.2.withContent (change found.1)) := by
  unfold find?
  rw [resolve_withContents]
  rcases fs.resolve p with e | (⟨loc, node⟩ | ⟨loc, slash⟩) <;> rfl

@[simp] theorem isDirectory_withContents (p : PathText) :
    (fs.withContents change).isDirectory p = fs.isDirectory p := by
  unfold isDirectory
  rw [find?_withContents]
  rcases fs.find? p with _ | ⟨loc, _ | ⟨content, executable⟩⟩ <;> rfl

@[simp] theorem isFile_withContents (p : PathText) :
    (fs.withContents change).isFile p = fs.isFile p := by
  unfold isFile
  rw [find?_withContents]
  rcases fs.find? p with _ | ⟨loc, _ | ⟨content, executable⟩⟩ <;> rfl

theorem directory?_withContents (p : PathText) :
    (fs.withContents change).directory? p = fs.directory? p := by
  unfold directory?
  rw [find?_withContents]
  rcases fs.find? p with _ | ⟨loc, _ | ⟨content, executable⟩⟩ <;> rfl

theorem entries_withContents (top : Location) :
    (fs.withContents change).entries top
      = (fs.entries top).map fun entry =>
          (entry.1, entry.2.withContent (change (top ++ [entry.1]))) := by
  unfold entries withContents
  rw [List.filterMap_map, List.map_filterMap]
  refine List.filterMap_congr fun ⟨loc, node⟩ _ => ?_
  dsimp only [Function.comp_apply]
  split
  next hbelow => rw [Option.map_some, ← Location.below?_eq_some.mp hbelow]
  next => rfl

/-- A directory keeps its entries, and the directories among them. -/
theorem entriesAt_withContents (p : PathText) :
    ∃ top, (fs.withContents change).entriesAt p
      = (fs.entriesAt p).map fun entry =>
          (entry.1, entry.2.withContent (change (top ++ [entry.1]))) := by
  unfold entriesAt
  rw [directory?_withContents]
  cases fs.directory? p with
  | none => exact ⟨[], rfl⟩
  | some top => exact ⟨top, fs.entries_withContents change top⟩

theorem filesBelow_withContents (top : Location) :
    (fs.withContents change).filesBelow top
      = (fs.filesBelow top).map fun file =>
          { file with content := change (top ++ file.way) file.content } := by
  unfold filesBelow withContents
  rw [List.filterMap_map, List.map_filterMap]
  refine List.filterMap_congr fun ⟨loc, node⟩ _ => ?_
  dsimp only [Function.comp_apply]
  cases hbelow : Location.below? top loc with
  | none => rfl
  | some way =>
    cases node with
    | directory => rfl
    | file content executable => rw [Location.below?_eq_some.mp hbelow]; rfl

theorem walk_withContents (top : Location) :
    (fs.withContents change).walk top
      = (fs.walk top).map fun file =>
          { file with content := change (top ++ file.way) file.content } := by
  unfold walk
  rw [filesBelow_withContents]
  refine (List.map_mergeSort ?_).symm
  exact fun _ _ _ _ => rfl

/-- A walk meets the same files, each with its new content. -/
theorem walkPath_withContents (p : PathText) :
    ∃ top, (fs.withContents change).walkPath p
      = (fs.walkPath p).map fun file =>
          { file with content := change (top ++ file.way) file.content } := by
  unfold walkPath
  rw [find?_withContents]
  cases fs.find? p with
  | none => exact ⟨[], rfl⟩
  | some found => exact ⟨found.1, fs.walk_withContents change found.1⟩

end FileSystem
end SdkEvidence
