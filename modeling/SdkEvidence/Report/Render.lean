import SdkEvidence.Action
import SdkEvidence.Report.DetectionLayout
import SdkEvidence.Report.Encode
import SdkEvidence.Report.InventoryLayout
import SdkEvidence.Text.Lower

/-!
# Report files

A report is written as text, in the layout of its mode, or as JSON. The name of its file tells the
mode, the package and the moment.
-/

/-! ## Slugs

A text in file names: in lower case, with one hyphen for every run of other characters than small
letters, digits and hyphens, and without hyphens at the ends.
-/
namespace SdkEvidence.Slug

/-- Whether a character may stand in a slug. -/
def isKept (c : Char) : Bool :=
  ('a' ≤ c && c ≤ 'z') || ('0' ≤ c && c ≤ '9') || c == '-'

/-- Replaces every run of other characters before a kept one by a hyphen; `gap` tells whether such
a run stands before. -/
def collapse (gap : Bool) : List Char → List Char
  | [] => []
  | c :: rest =>
      if isKept c then (if gap then ['-', c] else [c]) ++ collapse false rest
      else collapse true rest

/-- Drops hyphens at both ends. -/
def trimHyphens (text : List Char) : List Char :=
  ((text.dropWhile (· == '-')).reverse.dropWhile (· == '-')).reverse

/-- The slug of a text. A text without any character to keep is unknown. -/
def ofText (text : String) : String :=
  let slug := trimHyphens (collapse false (Text.lower text.toList))
  if slug.isEmpty then "unknown" else String.ofList slug

end SdkEvidence.Slug

/-! ## Files -/
namespace SdkEvidence

namespace Report

/-- The report as text. -/
def layoutText (report : Report) : String :=
  match report.mode with
  | .inventory => Layout.text (Layout.inventory report)
  | .detection _ => Layout.text (Layout.detection report)

/-- The report in a format. -/
def render (report : Report) : ReportFormat → String
  | .text => report.layoutText
  | .json => report.toJson.pretty

/-- What a file name calls the package: its identifier, or else its display name. -/
def subject (report : Report) : String :=
  let facts := report.metadata.facts
  if facts.hasPackageId then facts.packageId
  else if facts.hasDisplayName then facts.displayName
  else ""

/-- The usual name of a report file. -/
def fileName (report : Report) (format : ReportFormat) : String :=
  report.mode.tag ++ "-android-" ++ Slug.ofText report.subject ++ "-" ++ report.generatedAt.stamp
    ++ "." ++ format.extension

end Report

/-- A report file that was written. -/
structure WrittenReport where
  path : PathText
  text : String
  deriving DecidableEq, Repr

/-- Writes a report into a directory, under its usual name or another one. -/
def Report.write (report : Report) (format : ReportFormat) (directory : PathText)
    (name : Option String) : Action WrittenReport := do
  let text := report.render format
  Action.createDirectories .ofOsError directory
  let path := Path.join directory (name.getD (report.fileName format))
  Action.change .ofOsError fun fs => fs.writeFile path (Utf8.encode text)
  pure { path, text }

end SdkEvidence
