import SdkEvidence.Dictionary
import SdkEvidence.Manifest.Info
import SdkEvidence.Metadata.Kotlin
import SdkEvidence.Metadata.Locale
import SdkEvidence.Metadata.Provenance
import SdkEvidence.Tree.Index

/-!
# Package metadata

All facets of a package. Each is taken as far as it goes: a missing file or directory leaves its
facet empty and touches no other.
-/
namespace SdkEvidence

/-! ## Code packages

The top-level packages of the decompiled code with the number of their class files. Packages of
one name in several code directories are one.
-/

/-- A top-level package. -/
structure CodePackage where
  name : String
  classFiles : Nat
  deriving DecidableEq, Repr

namespace CodePackage

/-- Extensions of class files. -/
def classExtensions : List String := ["smali", "java", "kt"]

/-- The package that a code file belongs to, if it is a class file below a package. -/
def ofFile? (file : IndexedFile) : Option String :=
  match file.way with
  | _ :: package :: _ :: _ =>
      if classExtensions.contains file.extension then some package else none
  | _ => none

/-- Counts names. -/
def count (names : List String) : Dictionary Nat :=
  names.foldl (fun counts name => counts.insert name (((counts.get? name).getD 0) + 1)) []

/-- The packages of the code, sorted by name. -/
def collect (index : PackageIndex) : List CodePackage :=
  (count ((index.filesIn .code).filterMap ofFile?)).map fun (name, classFiles) =>
    { name, classFiles }

end CodePackage

/-! ## All facets -/

/-- The number of files in some areas, and of their bytes. -/
structure ContentSummary where
  files : Nat
  bytes : Nat
  deriving DecidableEq, Repr

namespace ContentSummary

/-- The summary of some files. -/
def ofFiles (files : List IndexedFile) : ContentSummary :=
  { files := files.length, bytes := total (files.map IndexedFile.size) }

end ContentSummary

/-- The facets of a package. -/
structure PackageMetadata where
  facts : PackageFacts
  versionStamps : List VersionStamp
  permissions : List String
  features : List HardwareFeature
  buildInfo : Dictionary String
  kotlin : KotlinRuntime
  assets : ContentSummary
  resources : ContentSummary
  locales : List String
  codePackages : List CodePackage
  deriving DecidableEq, Repr

namespace PackageMetadata

/-- The file of string resources in a resource directory. -/
def stringsFile (resources : PathText) : PathText :=
  Path.join (Path.join resources "values") "strings.xml"

/-- What the manifest of an indexed package says. -/
def manifestInfo (fs : FileSystem) (index : PackageIndex) : ManifestInfo :=
  let text := (fs.readText? index.manifestPath).getD ""
  let strings := fs.readText? (stringsFile (Path.join index.decompiled TreeArea.resourceDirectory))
  Manifest.info text strings (fs.readText? (Path.join index.decompiled "apktool.yml"))

/-- The metadata of an indexed package. -/
def extract (fs : FileSystem) (index : PackageIndex) : PackageMetadata :=
  let info := manifestInfo fs index
  let stamps := VersionStamp.readFrom fs index.metadata
  { facts := info.facts
    versionStamps := stamps
    permissions := info.permissions
    features := info.features
    buildInfo := Provenance.collect fs index.raw index.metadata info.buildAttributes
    kotlin := KotlinRuntime.detect fs index.raw index.metadata stamps
    assets := .ofFiles (index.filesIn .asset)
    resources := .ofFiles (index.filesIn .resourceXml ++ index.filesIn .resource)
    locales := Locale.collect fs index.decompiled
    codePackages := CodePackage.collect index }

end PackageMetadata

end SdkEvidence
