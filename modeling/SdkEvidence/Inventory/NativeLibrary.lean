import SdkEvidence.Dictionary
import SdkEvidence.Inventory.LibraryDatabase
import SdkEvidence.Tree.Index

/-!
# Native libraries

Every file of the native library area is listed, with what the database knows of it. The directory
below the library directory is its architecture.
-/
namespace SdkEvidence

/-- A native library of a package. -/
structure NativeLibrary where
  name : String
  architecture : String
  path : String
  size : Nat
  description : Option String
  vendor : Option String
  version : Option String
  deriving DecidableEq, Repr

namespace NativeLibrary

/-- The architecture by the way to the file; a file directly in the library directory has none. -/
def architectureOf : Location → String
  | _ :: architecture :: _ :: _ => architecture
  | _ => ""

/-- A file with what the database knows of it. -/
def ofFile (database : LibraryDatabase) (file : IndexedFile) : NativeLibrary :=
  let row := database.lookup file.name
  { name := file.name
    architecture := architectureOf file.way
    path := file.relative
    size := file.size
    description := row.bind LibraryRow.description
    vendor := row.bind LibraryRow.vendor
    version := row.bind LibraryRow.version }

/-- The order by architecture, then by name, then by path. -/
def le (a b : NativeLibrary) : Bool :=
  if a.architecture ≠ b.architecture then decide (a.architecture ≤ b.architecture)
  else if a.name ≠ b.name then decide (a.name ≤ b.name)
  else decide (a.path ≤ b.path)

/-- The native libraries of a package, in order. -/
def collect (database : LibraryDatabase) (index : PackageIndex) : List NativeLibrary :=
  (((index.filesIn .nativeLibrary).map (ofFile database)).mergeSort le).eraseRepsBy fun a b =>
    a.name == b.name && a.path == b.path

/-- The distinct architectures of libraries, sorted. -/
def architectures (libraries : List NativeLibrary) : List String :=
  sortedDistinct ((libraries.map NativeLibrary.architecture).filter fun a => a != "")

end NativeLibrary
end SdkEvidence
