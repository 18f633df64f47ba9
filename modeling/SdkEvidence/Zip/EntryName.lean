import SdkEvidence.FileSystem.Path

/-!
# Entry names

Where an entry of an archive may be written, judged by its name alone.
-/
namespace SdkEvidence.Zip

/-- How deep below its start a path stands after each of its components, or none when it leaves
its start: it is absolute or climbs above. -/
def depthBelow (depth : Nat) : List Path.Component → Option Nat
  | [] => some depth
  | .root :: _ => none
  | .current :: rest => depthBelow depth rest
  | .parent :: rest => match depth with
      | 0 => none
      | depth + 1 => depthBelow depth rest
  | .name _ :: rest => depthBelow (depth + 1) rest

/-- Whether a name stays below the directory that it is extracted into, at every step. -/
def isEnclosed (name : String) : Bool :=
  !name.toList.contains '\x00' && (depthBelow 0 (Path.components name)).isSome

/-- Whether a name stands for a directory. -/
def isDirectoryName (name : String) : Bool :=
  match name.toList.getLast? with
  | some c => c == '/' || c == '\\'
  | none => false

end SdkEvidence.Zip
