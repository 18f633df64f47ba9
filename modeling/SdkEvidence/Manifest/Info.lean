import SdkEvidence.Dictionary
import SdkEvidence.Manifest.ApktoolFile
import SdkEvidence.Manifest.Label

/-!
# What a manifest says

The identity of a package, the permissions and features that it declares, and what is known of its
build. What the manifest does not say is taken from apktool.yml; what neither says is unknown.
-/
namespace SdkEvidence

/-- The text for what is not known. -/
def unknown : String := "unknown"

/-- The identity of a package. -/
structure PackageFacts where
  packageId : String
  displayName : String
  versionName : String
  versionCode : String
  minSdk : String
  targetSdk : String
  deriving DecidableEq, Repr

namespace PackageFacts

/-- Nothing is known. -/
def none : PackageFacts :=
  { packageId := unknown, displayName := unknown, versionName := unknown, versionCode := unknown
    minSdk := unknown, targetSdk := unknown }

/-- Whether the package identifier is known. -/
def hasPackageId (facts : PackageFacts) : Bool :=
  facts.packageId != unknown

/-- Whether the display name is known. -/
def hasDisplayName (facts : PackageFacts) : Bool :=
  facts.displayName != unknown

end PackageFacts

/-- A feature that a package declares. -/
structure HardwareFeature where
  name : String
  required : Bool
  deriving DecidableEq, Repr

/-- Features in the order of their names; of one name, the optional one first. -/
def HardwareFeature.le (a b : HardwareFeature) : Bool :=
  if a.name = b.name then !a.required || b.required else decide (a.name ≤ b.name)

/-- All that a manifest says. -/
structure ManifestInfo where
  facts : PackageFacts
  permissions : List String
  features : List HardwareFeature
  buildAttributes : Dictionary String
  deriving DecidableEq, Repr

namespace Manifest

/-- The starts of the tags that are read. -/
def manifestTag : List String := ["<manifest"]
def applicationTag : List String := ["<application"]
def platformTag : List String := ["<uses-sdk"]
def permissionTag : List String := ["<uses-permission-sdk-23", "<uses-permission"]
def featureTag : List String := ["<uses-feature"]

/-- The attributes of the first tag that opens so; none if there is no such tag. -/
def firstAttributes (tag : List String) (text : List Char) : List Attribute :=
  ((firstBody? tag text).map attributes).getD []

/-- A fact of the manifest, or else of apktool.yml, or unknown. A manifest that states the word for
unknown counts as if it said nothing. -/
def known (stated said : Option String) : String :=
  let fact := stated.getD unknown
  if fact = unknown then said.getD unknown else fact

/-- Attributes of the manifest tag that tell of the build, each with the key it is listed under. -/
def buildKeys : List (String × String) :=
  [("platformBuildVersionName", "platformBuildVersionName"),
   ("platformBuildVersionCode", "platformBuildVersionCode"),
   ("android:compileSdkVersion", "compileSdkVersion"),
   ("android:compileSdkVersionCodename", "compileSdkVersionCodename")]

/-- The permissions that a manifest declares. -/
def permissions (text : List Char) : List String :=
  sortedDistinct ((bodies permissionTag text).filterMap fun body =>
    valueOf? (attributes body) "android:name")

/-- A feature by the body of its tag. It is required unless it says otherwise. -/
def feature? (body : List Char) : Option HardwareFeature :=
  let attributes := attributes body
  (valueOf? attributes "android:name").map fun name =>
    { name, required := valueOf? attributes "android:required" != some "false" }

/-- The features that a manifest declares. -/
def features (text : List Char) : List HardwareFeature :=
  (((bodies featureTag text).filterMap feature?).mergeSort HardwareFeature.le).eraseReps

/-- What a manifest says, given the file of string resources and apktool.yml if there are any. -/
def info (text : String) (strings apktoolFile : Option String) : ManifestInfo :=
  let chars := text.toList
  let file := (apktoolFile.map ApktoolFile.read).getD ApktoolFile.silent
  let manifest := firstAttributes manifestTag chars
  let platform := firstAttributes platformTag chars
  let application := firstAttributes applicationTag chars
  let label := (valueOf? application "android:label").bind fun label => labelText? label strings
  let build := buildKeys.filterMap fun (name, key) => (valueOf? manifest name).map (key, ·)
  { facts :=
      { packageId := (valueOf? manifest "package").getD unknown
        displayName := label.getD unknown
        versionName := known (valueOf? manifest "android:versionName") file.versionName
        versionCode := known (valueOf? manifest "android:versionCode") file.versionCode
        minSdk := known (valueOf? platform "android:minSdkVersion") file.minSdk
        targetSdk := known (valueOf? platform "android:targetSdkVersion") file.targetSdk }
    permissions := permissions chars
    features := features chars
    buildAttributes :=
      Dictionary.insertAll [] (build ++ (file.version.map fun v => ("apktool", v)).toList) }

end Manifest
end SdkEvidence
