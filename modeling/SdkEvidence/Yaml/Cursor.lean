/-!
# Reading positions in a YAML text

The rest of the text, with the number of characters and lines read and the column.
-/
namespace SdkEvidence.Yaml

/-- A position in a text. -/
structure Cursor where
  rest : List Char
  index : Nat
  line : Nat
  column : Nat
  deriving Repr

/-- Whether a text may hold the character at all. -/
def isAllowed (c : Char) : Bool :=
  let n := c.toNat
  n == 9 || n == 10 || n == 13 || (0x20 ≤ n && n ≤ 0x7E) || n == 0x85
    || (0xA0 ≤ n && n ≤ 0xFFFD) || 0x10000 ≤ n

/-- Whether the character ends a line. -/
def isBreak (c : Char) : Bool :=
  c == '\n' || c == '\r' || c == '\u0085' || c == '\u2028' || c == '\u2029'

/-- Whether the character is a blank inside a line. -/
def isBlank (c : Char) : Bool :=
  c == ' ' || c == '\t'

/-- Whether the character may stand in the name of an anchor, a directive or a tag handle. -/
def isNameChar (c : Char) : Bool :=
  c.isAlphanum || c == '_' || c == '-'

namespace Cursor

/-- The start of a text. -/
def start (text : List Char) : Cursor :=
  { rest := text, index := 0, line := 0, column := 0 }

/-- The character at a distance. -/
def peek (c : Cursor) (n : Nat) : Option Char :=
  c.rest[n]?

/-- Whether a certain character stands at a distance. -/
def sees (c : Cursor) (n : Nat) (x : Char) : Bool :=
  c.peek n == some x

/-- Whether one of certain characters stands next. -/
def seesOneOf (c : Cursor) (n : Nat) (xs : List Char) : Bool :=
  match c.peek n with
  | some x => xs.contains x
  | none => false

/-- Whether the text is at its end. -/
def atEnd (c : Cursor) : Bool :=
  c.rest.isEmpty

/-- Whether a blank stands next. -/
def atBlank (c : Cursor) : Bool :=
  (c.peek 0).any isBlank

/-- Whether a line end stands next. -/
def atBreak (c : Cursor) : Bool :=
  (c.peek 0).any isBreak

/-- Whether a line end or the end of the text stands at a distance. -/
def breaksAt (c : Cursor) (n : Nat) : Bool :=
  match c.peek n with
  | some x => isBreak x
  | none => true

/-- Whether a blank, a line end or the end of the text stands at a distance. -/
def gapAt (c : Cursor) (n : Nat) : Bool :=
  match c.peek n with
  | some x => isBlank x || isBreak x
  | none => true

/-- The position `n` characters further on the same line. -/
def skip (c : Cursor) (n : Nat) : Cursor :=
  { c with rest := c.rest.drop n, index := c.index + n, column := c.column + n }

/-- The position after a line end. A carriage return and a line feed are one line end. -/
def skipBreak (c : Cursor) : Cursor :=
  let width := match c.rest with
    | '\r' :: '\n' :: _ => 2
    | _ => 1
  { rest := c.rest.drop width, index := c.index + width, line := c.line + 1, column := 0 }

/-- How the line end that stands next counts in a scalar: all kinds are a line feed, apart from
the line and paragraph separators. -/
def breakText (c : Cursor) : List Char :=
  match c.rest with
  | '\u2028' :: _ => ['\u2028']
  | '\u2029' :: _ => ['\u2029']
  | _ :: _ => ['\n']
  | [] => []

/-- The characters that satisfy a test, and the position after them, on one line. -/
def takeWhile (c : Cursor) (test : Char → Bool) : List Char × Cursor :=
  let taken := c.rest.takeWhile test
  (taken, c.skip taken.length)

/-- The position after the blanks that stand next. -/
def skipBlanks (c : Cursor) : Cursor :=
  (c.takeWhile isBlank).2

/-- The position at the end of the line. -/
def skipLine (c : Cursor) : Cursor :=
  (c.takeWhile fun x => !isBreak x).2

/-- Whether a mark between documents stands at the start of a line. -/
def atDocumentMark (c : Cursor) : Bool :=
  c.column == 0 && c.gapAt 3
    && ((c.sees 0 '-' && c.sees 1 '-' && c.sees 2 '-')
      || (c.sees 0 '.' && c.sees 1 '.' && c.sees 2 '.'))

end Cursor
end SdkEvidence.Yaml
