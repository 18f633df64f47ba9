import SdkEvidence.Text.Blank
import SdkEvidence.Text.Line
import SdkEvidence.Text.Lower

/-!
# The library database

A text with one known library to a line: its name, description, vendor and version, separated by
bars. Blank lines, comments and rows without a name are passed over. A library is looked up by its
file name, of which the name in a row must be the start, in any case; the first such row counts.
-/
namespace SdkEvidence

/-- A row of the database. -/
structure LibraryRow where
  name : String
  description : Option String
  vendor : Option String
  version : Option String
  deriving DecidableEq, Repr

/-- The rows in the order of the text. -/
structure LibraryDatabase where
  rows : List LibraryRow
  deriving DecidableEq, Repr

namespace LibraryDatabase

/-- No rows. -/
def empty : LibraryDatabase :=
  { rows := [] }

/-- The fields of a line, trimmed. -/
def fieldsOf (line : List Char) : List (List Char) :=
  (line.splitOn '|').map Text.trim

/-- A field that is there and not blank. -/
def field? (fields : List (List Char)) (n : Nat) : Option String :=
  fields[n]?.bind fun field => if field.isEmpty then none else some (String.ofList field)

/-- The row of a line, if it is one. -/
def row? (line : List Char) : Option LibraryRow :=
  let line := Text.trim line
  if line.isEmpty ∨ line.head? = some '#' then none
  else
    let fields := fieldsOf line
    (field? fields 0).map fun name =>
      { name
        description := field? fields 1
        vendor := field? fields 2
        version := field? fields 3 }

/-- The database of a text. -/
def read (text : String) : LibraryDatabase :=
  { rows := (Text.lines text.toList).filterMap row? }

/-- Whether a row is for a library of the given name in lower case. -/
def fits (lowerName : List Char) (row : LibraryRow) : Bool :=
  (Text.lower row.name.toList).isPrefixOf lowerName

/-- The first row for a library. -/
def lookup (database : LibraryDatabase) (library : String) : Option LibraryRow :=
  database.rows.find? (fits (Text.lower library.toList))

end LibraryDatabase
end SdkEvidence
