import SdkEvidence.Bytes.Access

/-!
# File systems

A file system is a list of nodes, each at its location: the names that lead to it from the root.
The order of the list is the order in which a directory returns its entries; nothing that the
program answers depends on it. The root itself is always a directory and is not listed.
-/
namespace SdkEvidence

/-- The names that lead from the root to a node. -/
abbrev Location := List String

/-- What stands at a location. -/
inductive Node where
  | directory
  | file (content : ByteArray) (executable : Bool)
  deriving DecidableEq

/-- The nodes, where relative paths start, where temporary files go, and where the search for
names of temporary files starts. -/
structure FileSystem where
  nodes : List (Location × Node)
  current : Location
  temporary : String
  seed : Nat := 0
  deriving DecidableEq

/-- Why an operation on files fails. -/
inductive OsError where
  | notFound
  | notADirectory
  | isADirectory
  | alreadyExists
  | permissionDenied
  | nameTooLong
  | nulInName
  | badExecutable
  deriving DecidableEq, Repr

/-- The wording of the operating system. -/
def OsError.reason : OsError → String
  | .notFound => "No such file or directory"
  | .notADirectory => "Not a directory"
  | .isADirectory => "Is a directory"
  | .alreadyExists => "File exists"
  | .permissionDenied => "Permission denied"
  | .nameTooLong => "File name too long"
  | .nulInName => "file name contained an unexpected NUL byte"
  | .badExecutable => "Exec format error"

/-- The number of an error; one that is found before the system is asked has none. -/
def OsError.number? : OsError → Option Nat
  | .notFound => some 2
  | .notADirectory => some 20
  | .isADirectory => some 21
  | .alreadyExists => some 17
  | .permissionDenied => some 13
  | .nameTooLong => some 36
  | .nulInName => none
  | .badExecutable => some 8

/-- The wording with the number. -/
def OsError.message (e : OsError) : String :=
  match e.number? with
  | some n => e.reason ++ " (os error " ++ toString n ++ ")"
  | none => e.reason

namespace Location

/-- The way from `top` to a location at or below it. -/
def below? : Location → Location → Option Location
  | [], rest => some rest
  | _ :: _, [] => none
  | a :: top, b :: rest => if a = b then below? top rest else none

theorem below?_eq_some {top loc rest : Location} :
    below? top loc = some rest ↔ loc = top ++ rest := by
  induction top generalizing loc with
  | nil => simp [below?, eq_comm]
  | cons a top ih =>
    cases loc with
    | nil => simp [below?]
    | cons b loc =>
      by_cases h : a = b
      · simp [below?, h, ih]
      · simp [below?, h, Ne.symm h]

/-- Whether one location stands before another in a walk: at the first name where they differ,
the smaller name is first. -/
def precedes : Location → Location → Bool
  | [], _ => true
  | _ :: _, [] => false
  | a :: s, b :: t => if a = b then precedes s t else decide (a < b)

end Location

namespace FileSystem

/-- A file system with the root only. -/
def empty : FileSystem :=
  { nodes := [], current := [], temporary := "/" }

/-- The node at a location. -/
def get? (fs : FileSystem) (loc : Location) : Option Node :=
  if loc = [] then some .directory else fs.nodes.lookup loc

/-- Puts a node at a location, in the place of one that stands there. -/
def put (fs : FileSystem) (loc : Location) (node : Node) : FileSystem :=
  if (fs.nodes.lookup loc).isSome then
    { fs with nodes := fs.nodes.map fun entry => if entry.1 = loc then (loc, node) else entry }
  else { fs with nodes := fs.nodes ++ [(loc, node)] }

/-- Removes a node and all below it. -/
def removeTree (fs : FileSystem) (top : Location) : FileSystem :=
  { fs with nodes := fs.nodes.filter fun entry => (Location.below? top entry.1).isNone }

/-- The entries of a directory with their nodes, in the order of the list. -/
def entries (fs : FileSystem) (top : Location) : List (String × Node) :=
  fs.nodes.filterMap fun (loc, node) =>
    match Location.below? top loc with
    | some [name] => some (name, node)
    | _ => none

end FileSystem
end SdkEvidence
