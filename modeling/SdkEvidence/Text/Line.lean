/-!
# Lines

A line ends with a line feed, which may follow a carriage return. The last line may lack its
end; an empty rest after the last line feed is no line.
-/
namespace SdkEvidence.Text

/-- A line that ended with a line feed, without the carriage return before it. -/
def dropCarriageReturn (line : List Char) : List Char :=
  if line.getLast? = some '\r' then line.dropLast else line

/-- The lines of pieces that were cut at every line feed: each piece but the last ended with one. -/
def linesOfPieces : List (List Char) → List (List Char)
  | [] => []
  | [rest] => if rest.isEmpty then [] else [rest]
  | piece :: more => dropCarriageReturn piece :: linesOfPieces more

/-- The lines of a text, without their ends. -/
def lines (text : List Char) : List (List Char) :=
  linesOfPieces (text.splitOn '\n')

end SdkEvidence.Text
