import SdkEvidence.Action
import SdkEvidence.Package.Extraction

/-!
# Inputs

What a path given by the caller is: a package, a split container, or a tree that was decompiled
before. A directory is told by its manifest, a file by its extension, a plain archive by what it
holds.
-/
namespace SdkEvidence

/-- The name of a manifest at the top of a tree. -/
def manifestName : String := "AndroidManifest.xml"

/-- What kind of input a path is. -/
inductive InputKind where
  | package
  | splitContainer
  | decompiledTree
  deriving DecidableEq, Repr

namespace InputKind

/-- The extensions of split containers. -/
def splitExtensions : List String := ["xapk", "apks", "apkm"]

/-- The kind of input that a path is in a file system. -/
def detectIn (fs : FileSystem) (path : PathText) : Except Failure InputKind :=
  if !fs.pathExists path then .error (.invalidInput ("Input not found: " ++ path))
  else if fs.isDirectory path then
    if fs.isFile (Path.join path manifestName) then .ok .decompiledTree
    else
      .error (.invalidInput
        ("Directory " ++ path ++ " is not a decompiled package (no " ++ manifestName ++ ")"))
  else
    let extension := Text.lowered ((Path.extension? path).getD "")
    if extension = "apk" then .ok .package
    else if splitExtensions.contains extension then .ok .splitContainer
    else if extension = "zip" then
      match containsPackages path fs with
      | .error e => .error (.invalidInput e.message)
      | .ok true => .ok .splitContainer
      | .ok false => .error (.invalidInput (path ++ " contains no packages"))
    else .error (.invalidInput ("Unsupported input type: " ++ path))

/-- The kind of input that a path is. -/
def detect (path : PathText) : Action InputKind := do
  match detectIn (← get) path with
  | .ok kind => pure kind
  | .error e => throw e

end InputKind

/-- Extracts a package as a plain archive. Gives the number of files written. -/
def extractRaw (package dest : PathText) : Action Nat := do
  let done ← Action.step (fun e : ExtractionError => .invalidInput e.message)
    (extractInto package dest)
  pure done.written

end SdkEvidence
