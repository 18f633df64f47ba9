/-!
# Rows of a text report

A text report is a list of rows. Every row ends with a line break, and a row that quotes a text
with line breaks in it stays one row.
-/
namespace SdkEvidence.Layout

/-- The line around titles and at the end. -/
def rule : String := String.ofList (List.replicate 70 '=')

/-- The line below headings. -/
def thinRule : String := String.ofList (List.replicate 70 '-')

/-- A text with blanks after it, up to a width. -/
def padded (width : Nat) (text : String) : String :=
  text ++ String.ofList (List.replicate (width - text.length) ' ')

/-- A text with blanks before it, up to a width. -/
def alignedRight (width : Nat) (text : String) : String :=
  String.ofList (List.replicate (width - text.length) ' ') ++ text

/-- The title of a report. -/
def title (text : String) : List String :=
  [rule, "  " ++ text, rule]

/-- The heading of a section. -/
def heading (text : String) : List String :=
  ["", text, thinRule]

/-- The heading of a section that lists a number of items. -/
def countedHeading (text : String) (count : Nat) : List String :=
  heading (text ++ " (" ++ toString count ++ ")")

/-- A value with its label. -/
def field (label value : String) : String :=
  "  " ++ padded 18 (label ++ ":") ++ value

/-- A text or, if there is nothing to list, a word for that. -/
def listed (items : List String) : String :=
  if items.isEmpty then "none" else ", ".intercalate items

/-- The text of rows. -/
def text (rows : List String) : String :=
  String.join (rows.map fun row => row ++ "\n")

end SdkEvidence.Layout
