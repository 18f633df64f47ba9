import SdkEvidence.Metadata.Stamp
import SdkEvidence.Metadata.Provenance
import SdkEvidence.Text.Lower
import SdkEvidence.Text.Search

/-!
# The Kotlin runtime

The runtime is there if a directory, a module file, a stamp or the tooling metadata tells of it. A
stamp of the standard library gives the version, or else the tooling metadata.
-/
namespace SdkEvidence

/-- Whether the runtime is there, and its version if it is known. -/
structure KotlinRuntime where
  present : Bool
  version : Option String
  deriving DecidableEq, Repr

namespace KotlinRuntime

/-- No runtime. -/
def absent : KotlinRuntime :=
  { present := false, version := none }

/-- Whether a stamp is that of the standard library. -/
def isStandardLibrary (stamp : VersionStamp) : Bool :=
  let name := Text.lower stamp.library.toList
  Text.contains "kotlin-stdlib".toList name || Text.contains "kotlin_stdlib".toList name

/-- Whether a directory has an entry that is a module file by its name. -/
def hasModuleFile (fs : FileSystem) (directory : PathText) : Bool :=
  (fs.entriesAt directory).any fun entry =>
    Text.endsWith ".kotlin_module".toList entry.1.toList

/-- The runtime of a package by its raw tree, its metadata directory and its stamps. -/
def detect (fs : FileSystem) (raw : PathText) (metadata : Option PathText)
    (stamps : List VersionStamp) : KotlinRuntime :=
  let stamped := (stamps.find? isStandardLibrary).map VersionStamp.version
  let version := stamped.orElse fun _ => Tooling.pluginVersion? fs raw
  { present := fs.isDirectory (Path.join raw "kotlin") || metadata.any (hasModuleFile fs)
      || version.isSome
    version }

end KotlinRuntime
end SdkEvidence
