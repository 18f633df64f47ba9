import SdkEvidence.Decimal.Binary64
import SdkEvidence.Report.Section

/-!
# The inventory layout

Everything that is known of a package, section by section. Native libraries come in groups, one
for each stretch of libraries of the same architecture.
-/

/-! ## Sizes

A number of bytes is shown in bytes, kilobytes or megabytes. The larger units have one decimal
place; a tie goes to the even digit. Numbers beyond fifty-three bits are taken to that precision
first.
-/
namespace SdkEvidence.Size

/-- Bytes of a kilobyte and of a megabyte. -/
def kilobyte : Nat := 1024
def megabyte : Nat := 1048576

/-- A number to fifty-three bits of precision, rounded to the nearest. -/
def toPrecision (n : Nat) : Nat :=
  if n < Nat.pow 2 53 then n
  else
    let dropped := Nat.pow 2 (n.log2 - 52)
    Decimal.roundDiv n dropped * dropped

/-- A quotient with one decimal place. -/
def oneDecimal (n unit : Nat) : String :=
  let tenths := Decimal.roundDiv (n * 10) unit
  toString (tenths / 10) ++ "." ++ toString (tenths % 10)

/-- A size as text. -/
def text (bytes : Nat) : String :=
  let n := toPrecision bytes
  if megabyte ≤ n then oneDecimal n megabyte ++ " MB"
  else if kilobyte ≤ n then oneDecimal n kilobyte ++ " KB"
  else toString bytes ++ " B"

end SdkEvidence.Size

/-! ## Sections -/
namespace SdkEvidence.Layout

/-- A library that resembles a competitor's. -/
def competitorRow (found : CompetitorMatch) : String :=
  "  ! " ++ found.libraryName ++ " (" ++ found.libraryPath ++ ", " ++ Size.text found.librarySize
    ++ ") resembles \"" ++ found.competitor ++ "\""

/-- Libraries that may be a competitor's, with a warning that a name proves nothing. -/
def competitors (report : Report) : List String :=
  countedHeading "POTENTIAL COMPETITOR SDKS" report.competitorMatches.length
    ++ report.competitorMatches.map competitorRow
    ++ (if report.competitorMatches.isEmpty then []
      else ["  Name-based matches are potential only and need manual confirmation."])

/-- The heading of the libraries of an architecture. -/
def architectureRows (architecture : String) : List String :=
  ["", "  [" ++ (if architecture = "" then "(no ABI directory)" else architecture) ++ "]"]

/-- What is known of a library. -/
def libraryDetails (library : NativeLibrary) : List String :=
  library.description.toList ++ (library.vendor.map fun v => "vendor: " ++ v).toList
    ++ (library.version.map fun v => "version: " ++ v).toList

/-- The rows of a library. -/
def libraryRows (library : NativeLibrary) : List String :=
  let details := libraryDetails library
  ("    " ++ padded 36 library.name ++ " " ++ alignedRight 10 (Size.text library.size))
    :: (if details.isEmpty then [] else ["      " ++ "; ".intercalate details])

/-- The rows of libraries in order, where `shown` is the architecture of the last heading. -/
def groupedLibraries (shown : Option String) : List NativeLibrary → List String
  | [] => []
  | library :: rest =>
      (if shown = some library.architecture then [] else architectureRows library.architecture)
        ++ libraryRows library ++ groupedLibraries (some library.architecture) rest

/-- The native libraries by architecture. -/
def nativeLibraries (report : Report) : List String :=
  heading "NATIVE LIBRARIES" ++ ["  " ++ libraryCount report]
    ++ groupedLibraries none report.libraries

/-- The row of a code package. -/
def codePackageRow (package : CodePackage) : String :=
  "  " ++ padded 40 package.name ++ " " ++ toString package.classFiles ++ " class file(s)"

/-- The first code packages, as many as the report shall list. -/
def codePackages (report : Report) : List String :=
  let all := report.metadata.codePackages
  let shown := all.take report.packageListingLimit
  heading ("TOP-LEVEL CODE PACKAGES (showing " ++ toString shown.length ++ " of "
      ++ toString all.length ++ ")")
    ++ (if all.isEmpty then ["  No decompiled code found."] else [])
    ++ shown.map codePackageRow

/-- The row of a version stamp. -/
def stampRow (stamp : VersionStamp) : String :=
  "  " ++ padded 48 stamp.library ++ " " ++ stamp.version

/-- What is known of the Kotlin runtime. -/
def kotlinText (kotlin : KotlinRuntime) : String :=
  if kotlin.present then "present (version " ++ kotlin.version.getD "unknown" ++ ")"
  else "not detected"

/-- The bundled dependencies and the Kotlin runtime. -/
def dependencies (report : Report) : List String :=
  let stamps := report.metadata.versionStamps
  countedHeading "BUNDLED DEPENDENCY VERSIONS" stamps.length
    ++ (if stamps.isEmpty then ["  No version stamps found."] else [])
    ++ stamps.map stampRow
    ++ heading "KOTLIN RUNTIME"
    ++ [field "Kotlin" (kotlinText report.metadata.kotlin)]

/-- The requested permissions. -/
def permissions (report : Report) : List String :=
  countedHeading "PERMISSIONS" report.metadata.permissions.length
    ++ report.metadata.permissions.map fun permission => "  " ++ permission

/-- The row of a hardware feature. -/
def featureRow (feature : HardwareFeature) : String :=
  "  " ++ feature.name ++ (if feature.required then " (required)" else " (optional)")

/-- The hardware features. -/
def features (report : Report) : List String :=
  countedHeading "HARDWARE FEATURES" report.metadata.features.length
    ++ report.metadata.features.map featureRow

/-- What is known of the build. -/
def buildInfo (report : Report) : List String :=
  let info := report.metadata.buildInfo
  heading "BUILD INFORMATION"
    ++ (if info.isEmpty then ["  No build provenance recorded."] else [])
    ++ info.map fun (key, value) => "  " ++ key ++ ": " ++ value

/-- How much content of a kind there is. -/
def contentText (summary : ContentSummary) : String :=
  toString summary.files ++ " file(s), " ++ Size.text summary.bytes

/-- The assets, the resources and the locales of these. -/
def contents (report : Report) : List String :=
  let metadata := report.metadata
  heading "ASSETS AND RESOURCES"
    ++ [field "Assets" (contentText metadata.assets),
        field "Resources" (contentText metadata.resources),
        field "Locales"
          (if metadata.locales.isEmpty then "none"
          else
            toString metadata.locales.length ++ " (" ++ ", ".intercalate metadata.locales ++ ")")]

/-- The rows of the inventory layout. -/
def inventory (report : Report) : List String :=
  title "ANDROID SDK INVENTORY REPORT" ++ application report ++ sdks report ++ competitors report
    ++ nativeLibraries report ++ codePackages report ++ dependencies report ++ permissions report
    ++ features report ++ buildInfo report ++ contents report ++ technicalDetails report

end SdkEvidence.Layout
