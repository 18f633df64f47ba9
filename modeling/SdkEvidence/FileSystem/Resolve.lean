import SdkEvidence.FileSystem.Basic
import SdkEvidence.FileSystem.Path

/-!
# Operations by path

A path is followed segment by segment. Every segment, even an empty one, needs a directory to
stand in, so a path with a slash at its end never names a file. The last segment may be free, so
that something can be created there.
-/
namespace SdkEvidence

/-- What a path leads to: a node, or a free place in a directory. `slash` tells whether the path
went on after the free name. -/
inductive Target where
  | found (loc : Location) (node : Node)
  | free (loc : Location) (slash : Bool)
  deriving DecidableEq

namespace FileSystem

/-- The greatest length of a name in bytes. -/
def nameLimit : Nat := 255

/-- Follows segments from a location. -/
def follow (fs : FileSystem) (place : Location) : List String → Except OsError Target
  | [] =>
      match fs.get? place with
      | some node => .ok (.found place node)
      | none => .error .notFound
  | segment :: rest =>
      match fs.get? place with
      | none => .error .notFound
      | some (.file _ _) => .error .notADirectory
      | some .directory =>
          if Path.isFiller segment then fs.follow place rest
          else if segment = ".." then fs.follow place.dropLast rest
          else if nameLimit < segment.utf8ByteSize then .error .nameTooLong
          else if (fs.get? (place ++ [segment])).isSome then fs.follow (place ++ [segment]) rest
          else if rest.all (· == "") then .ok (.free (place ++ [segment]) !rest.isEmpty)
          else .error .notFound

/-- What a path leads to. -/
def resolve (fs : FileSystem) (p : PathText) : Except OsError Target :=
  if p = "" then .error .notFound
  else if p.toList.contains '\x00' then .error .nulInName
  else fs.follow (if Path.isAbsolute p then [] else fs.current) (Path.body p)

/-- The node that a path leads to, and where it is. -/
def find? (fs : FileSystem) (p : PathText) : Option (Location × Node) :=
  match fs.resolve p with
  | .ok (.found loc node) => some (loc, node)
  | _ => none

/-- Whether the path leads to anything. -/
def pathExists (fs : FileSystem) (p : PathText) : Bool :=
  (fs.find? p).isSome

/-- Whether the path leads to a regular file. -/
def isFile (fs : FileSystem) (p : PathText) : Bool :=
  match fs.find? p with
  | some (_, .file _ _) => true
  | _ => false

/-- Whether the path leads to a directory. -/
def isDirectory (fs : FileSystem) (p : PathText) : Bool :=
  match fs.find? p with
  | some (_, .directory) => true
  | _ => false

/-- The location of the directory that a path leads to. -/
def directory? (fs : FileSystem) (p : PathText) : Option Location :=
  match fs.find? p with
  | some (loc, .directory) => some loc
  | _ => none

/-- The content of the file that a path leads to. -/
def readFile (fs : FileSystem) (p : PathText) : Except OsError ByteArray :=
  match fs.resolve p with
  | .error e => .error e
  | .ok (.found _ (.file content _)) => .ok content
  | .ok (.found _ .directory) => .error .isADirectory
  | .ok (.free _ _) => .error .notFound

/-- Creates a directory whose parent exists. -/
def createDirectory (fs : FileSystem) (p : PathText) : Except OsError FileSystem :=
  match fs.resolve p with
  | .error e => .error e
  | .ok (.found _ _) => .error .alreadyExists
  | .ok (.free loc _) => .ok (fs.put loc .directory)

/-- Creates a directory and the missing ones above it. What was created before a failure stays.
A parent's text is shorter than the path's, which bounds the depth. -/
def createDirectoriesWithin :
    Nat → FileSystem → PathText → FileSystem × Except OsError Unit
  | 0, fs, _ => (fs, .error .notFound)
  | depth + 1, fs, p =>
      if p = "" then (fs, .ok ())
      else
        match fs.createDirectory p with
        | .ok made => (made, .ok ())
        | .error .notFound =>
            match Path.parent? p with
            | none => (fs, .error .notFound)
            | some above =>
                match createDirectoriesWithin depth fs above with
                | (fs, .error e) => (fs, .error e)
                | (fs, .ok ()) =>
                    match fs.createDirectory p with
                    | .ok made => (made, .ok ())
                    | .error e => (fs, if fs.isDirectory p then .ok () else .error e)
        | .error e => (fs, if fs.isDirectory p then .ok () else .error e)

/-- Creates a directory and the missing ones above it. -/
def createDirectories (fs : FileSystem) (p : PathText) : FileSystem × Except OsError Unit :=
  createDirectoriesWithin (p.length + 1) fs p

/-- Writes a file. A file that stands there keeps its mode. -/
def writeFile (fs : FileSystem) (p : PathText) (content : ByteArray) :
    Except OsError FileSystem :=
  match fs.resolve p with
  | .error e => .error e
  | .ok (.found loc (.file _ executable)) => .ok (fs.put loc (.file content executable))
  | .ok (.found _ .directory) => .error .isADirectory
  | .ok (.free loc slash) =>
      if slash then .error .isADirectory else .ok (fs.put loc (.file content false))

/-- Moves the file at a location to what a path leads to: a file there is replaced, a directory is
not. -/
def moveFile (fs : FileSystem) (source : Location) (p : PathText) : Except OsError FileSystem :=
  match fs.get? source with
  | none => .error .notFound
  | some node =>
      let moved (loc : Location) := (fs.removeTree source).put loc node
      match fs.resolve p with
      | .error e => .error e
      | .ok (.found _ .directory) => .error .isADirectory
      | .ok (.found loc (.file _ _)) => .ok (moved loc)
      | .ok (.free loc slash) => if slash then .error .notADirectory else .ok (moved loc)

end FileSystem
end SdkEvidence
