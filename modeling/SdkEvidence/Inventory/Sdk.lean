import SdkEvidence.Dictionary
import SdkEvidence.Inventory.NativeLibrary
import SdkEvidence.Metadata.Stamp

/-!
# Detected SDKs

Version stamps and native libraries of known vendors become one list in the order of their names,
with one entry for each name in any case. Stamps come before libraries.
-/
namespace SdkEvidence

/-- Where an entry comes from. -/
inductive SdkSource where
  | versionStamp
  | nativeLibrary
  deriving DecidableEq, Repr

/-- A detected SDK. -/
structure DetectedSdk where
  name : String
  version : Option String
  vendor : Option String
  source : SdkSource
  deriving DecidableEq, Repr

namespace DetectedSdk

/-- The entry of a stamp. -/
def ofStamp (stamp : VersionStamp) : DetectedSdk :=
  { name := stamp.library, version := some stamp.version, vendor := none, source := .versionStamp }

/-- The entry of a library, if its vendor is known. -/
def ofLibrary? (library : NativeLibrary) : Option DetectedSdk :=
  library.vendor.map fun vendor =>
    { name := library.description.getD library.name, version := library.version
      vendor := some vendor, source := .nativeLibrary }

/-- The entries of stamps and libraries, one for each name: the first. -/
def aggregate (stamps : List VersionStamp) (libraries : List NativeLibrary) : List DetectedSdk :=
  let entries := stamps.map ofStamp ++ libraries.filterMap ofLibrary?
  let dictionary : Dictionary DetectedSdk :=
    entries.foldl (fun d entry => d.insertNew (Text.lowered entry.name) entry) []
  dictionary.values

end DetectedSdk
end SdkEvidence
