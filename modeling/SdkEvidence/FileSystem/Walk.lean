import SdkEvidence.FileSystem.Resolve

/-!
# Walks

A walk visits the files at or below a location. Files come in the order of their names, directory
by directory, whatever order the directories return their entries in.
-/
namespace SdkEvidence

/-- A file met on a walk: the way to it from the top, and its content. -/
structure WalkedFile where
  way : Location
  content : ByteArray
  deriving DecidableEq

/-- The way as text, with slashes. -/
def WalkedFile.relative (file : WalkedFile) : String :=
  "/".intercalate file.way

namespace FileSystem

/-- The files at or below a location, in the order of the list. -/
def filesBelow (fs : FileSystem) (top : Location) : List WalkedFile :=
  fs.nodes.filterMap fun (loc, node) =>
    match Location.below? top loc, node with
    | some way, .file content _ => some { way, content }
    | _, _ => none

/-- The files at or below a location, in walk order. -/
def walk (fs : FileSystem) (top : Location) : List WalkedFile :=
  (fs.filesBelow top).mergeSort fun a b => Location.precedes a.way b.way

/-- The files at or below what a path leads to; none if it leads nowhere. -/
def walkPath (fs : FileSystem) (p : PathText) : List WalkedFile :=
  match fs.find? p with
  | some (loc, _) => fs.walk loc
  | none => []

/-- The names and nodes of a directory's entries; none if the path leads to no directory. -/
def entriesAt (fs : FileSystem) (p : PathText) : List (String × Node) :=
  match fs.directory? p with
  | some loc => fs.entries loc
  | none => []

/-- Whether a directory has no entry. -/
def isEmptyDirectory (fs : FileSystem) (loc : Location) : Bool :=
  (fs.entries loc).isEmpty

/-- The listing of a directory: the files below it with their content, and the empty directories
with a slash at the end, in the order of their texts. -/
def listing (fs : FileSystem) (p : PathText) : List (String × Option ByteArray) :=
  match fs.directory? p with
  | none => []
  | some top =>
      let found := fs.nodes.filterMap fun (loc, node) =>
        match Location.below? top loc, node with
        | some [], _ => none
        | some way, .file content _ => some ("/".intercalate way, some content)
        | some way, .directory =>
            if fs.isEmptyDirectory loc then some ("/".intercalate way ++ "/", none) else none
        | none, _ => none
      found.mergeSort fun a b => decide (a.1 ≤ b.1)

end FileSystem
end SdkEvidence
