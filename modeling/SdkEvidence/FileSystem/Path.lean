/-!
# Path texts

A path is a text of segments separated by slashes. Empty segments, and dots that are not the
first segment of a relative path, name nothing; the remaining segments are its components. All
operations here are on the text alone and never look at a file system.
-/
namespace SdkEvidence

/-- A path as it is written. -/
abbrev PathText := String

namespace Path

/-- The parts of a path that mean something. -/
inductive Component where
  | root
  | current
  | parent
  | name (segment : String)
  deriving DecidableEq, Repr

/-- Whether the path starts at the root. -/
def isAbsolute (p : PathText) : Bool :=
  p.toList.head? == some '/'

/-- The texts between slashes, in order. -/
def segments (p : PathText) : List String :=
  (p.toList.splitOn '/').map String.ofList

/-- The segments after the root of an absolute path; all segments of a relative one. -/
def body (p : PathText) : List String :=
  if isAbsolute p then (segments p).drop 1 else segments p

/-- The component that a segment is, beyond the first segment of a relative path. -/
def component? (segment : String) : Option Component :=
  if segment = "" ∨ segment = "." then none
  else if segment = ".." then some .parent
  else some (.name segment)

/-- The components of the segments of a relative path, where a leading dot counts. -/
def relativeComponents : List String → List Component
  | [] => []
  | first :: rest =>
      (if first = "." then [.current] else (component? first).toList)
        ++ rest.filterMap component?

/-- The components of a path. -/
def components (p : PathText) : List Component :=
  if isAbsolute p then .root :: (body p).filterMap component?
  else relativeComponents (body p)

/-- Whether two paths have the same components. -/
def same (p q : PathText) : Bool :=
  components p == components q

/-- The path `p` as seen from `base`: an absolute `p` stands for itself. -/
def join (base p : PathText) : PathText :=
  if isAbsolute p then p
  else if base = "" ∨ base.toList.getLast? = some '/' then base ++ p
  else base ++ "/" ++ p

/-- The last component, if it is a name. -/
def fileName? (p : PathText) : Option String :=
  match (components p).getLast? with
  | some (.name segment) => some segment
  | _ => none

/-- A file name split at its last dot. A name without a dot, or with its only dot in front, has
no extension. -/
def splitName (name : String) : String × Option String :=
  let chars := name.toList
  if name = ".." then (name, none)
  else
    let tail := chars.reverse.takeWhile (· != '.')
    let stem := (chars.reverse.drop (tail.length + 1)).reverse
    if tail.length = chars.length ∨ stem.isEmpty then (name, none)
    else (String.ofList stem, some (String.ofList tail.reverse))

/-- The file name up to its extension. -/
def stem? (p : PathText) : Option String :=
  (fileName? p).map fun name => (splitName name).1

/-- What follows the last dot of the file name. -/
def extension? (p : PathText) : Option String :=
  (fileName? p).bind fun name => (splitName name).2

/-- Whether a segment names nothing. -/
def isFiller (segment : String) : Bool :=
  segment == "" || segment == "."

/-- Drops segments that name nothing from the end of a reversed list. The first segment of a
relative path stays, unless it is empty. -/
def dropFiller (relative : Bool) : List String → List String
  | [] => []
  | segment :: rest =>
      if relative && rest.isEmpty && segment == "." then [segment]
      else if isFiller segment then dropFiller relative rest
      else segment :: rest

/-- The path without its last component. The root and the empty path have no parent. -/
def parent? (p : PathText) : Option PathText :=
  let relative := !isAbsolute p
  match dropFiller relative (body p).reverse with
  | [] => none
  | _ :: rest =>
      let kept := "/".intercalate (dropFiller relative rest).reverse
      some (if relative then kept else "/" ++ kept)

end Path
end SdkEvidence
