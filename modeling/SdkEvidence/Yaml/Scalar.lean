import SdkEvidence.Bytes.Hex
import SdkEvidence.Yaml.Cursor

/-!
# The text of YAML scalars

Plain and quoted scalars fold their line ends: a single one becomes a blank, of several all but
the first remain. Block scalars keep their lines below an indentation, literally or folded.
-/
namespace SdkEvidence.Yaml

/-- What separates two parts of a scalar. -/
structure Gap where
  blanks : List Char
  broken : Bool
  first : List Char
  others : List Char
  deriving Repr

/-- A gap that nothing stands in. -/
def Gap.none : Gap :=
  { blanks := [], broken := false, first := [], others := [] }

/-- What a gap becomes when text follows it. -/
def Gap.folded (gap : Gap) : List Char :=
  if gap.broken then
    if gap.first = ['\n'] then (if gap.others.isEmpty then [' '] else gap.others)
    else gap.first ++ gap.others
  else gap.blanks

/-- Reads blanks and line ends. With an indentation given, no tab may stand before it on a later
line. -/
def readGap (indent : Option Int) : Nat → Gap → Cursor → Option (Gap × Cursor)
  | 0, gap, c => some (gap, c)
  | fuel + 1, gap, c =>
      match c.peek 0 with
      | none => some (gap, c)
      | some x =>
          if isBlank x then
            if gap.broken && x == '\t' && indent.any (fun i => (c.column : Int) < i) then none
            else if gap.broken then readGap indent fuel gap (c.skip 1)
            else readGap indent fuel { gap with blanks := gap.blanks ++ [x] } (c.skip 1)
          else if isBreak x then
            let text := c.breakText
            let gap : Gap :=
              if gap.broken then { gap with others := gap.others ++ text }
              else { gap with blanks := [], broken := true, first := text }
            readGap indent fuel gap c.skipBreak
          else some (gap, c)

/-- The characters that end a plain scalar inside a flow collection. -/
def flowMarks : List Char := [',', '[', ']', '\x7b', '\x7d']

/-- Reads the characters of a plain scalar up to a blank or a mark, onto those read before, which
stand backwards. -/
def readPlainRun (inFlow : Bool) : Nat → List Char → Cursor → Option (List Char × Cursor)
  | 0, done, c => some (done.reverse, c)
  | fuel + 1, done, c =>
      match c.peek 0 with
      | none => some (done.reverse, c)
      | some x =>
          if isBlank x || isBreak x then some (done.reverse, c)
          else if inFlow && x == ':' && c.seesOneOf 1 ('?' :: flowMarks) then none
          else if (x == ':' && c.gapAt 1) || (inFlow && flowMarks.contains x) then
            some (done.reverse, c)
          else readPlainRun inFlow fuel (x :: done) (c.skip 1)

/-- Reads a plain scalar on, from after a gap. Also tells whether it ended on a new line. -/
def readPlainFrom (inFlow : Bool) (indent : Int) :
    Nat → List Char → Gap → Cursor → Option (List Char × Bool × Cursor)
  | 0, done, gap, c => some (done, gap.broken, c)
  | fuel + 1, done, gap, c =>
      if c.atDocumentMark || c.sees 0 '#' then some (done, gap.broken, c)
      else
        match readPlainRun inFlow (c.rest.length + 1) [] c with
        | none => none
        | some (run, c) =>
            let (done, broken) :=
              if run.isEmpty then (done, gap.broken) else (done ++ gap.folded ++ run, false)
            if !(c.atBlank || c.atBreak) then some (done, broken, c)
            else
              let before := if run.isEmpty then gap else Gap.none
              match readGap (some (indent + 1)) (c.rest.length + 1) before c with
              | none => none
              | some (gap, c) =>
                  if !inFlow && (c.column : Int) < indent + 1 then some (done, gap.broken, c)
                  else readPlainFrom inFlow indent fuel done gap c

/-- Reads a plain scalar. -/
def readPlain (inFlow : Bool) (indent : Int) (c : Cursor) :
    Option (List Char × Bool × Cursor) :=
  readPlainFrom inFlow indent (c.rest.length + 1) [] Gap.none c

/-- The character of an escape by one letter. -/
def letterEscape? : Char → Option Char
  | '0' => some '\x00'
  | 'a' => some '\x07'
  | 'b' => some '\x08'
  | 't' => some '\t'
  | '\t' => some '\t'
  | 'n' => some '\n'
  | 'v' => some '\x0b'
  | 'f' => some '\x0c'
  | 'r' => some '\r'
  | 'e' => some '\x1b'
  | ' ' => some ' '
  | '"' => some '"'
  | '/' => some '/'
  | '\\' => some '\\'
  | 'N' => some '\u0085'
  | '_' => some '\u00A0'
  | 'L' => some '\u2028'
  | 'P' => some '\u2029'
  | _ => none

/-- How many digits a numbered escape has. -/
def escapeWidth? : Char → Option Nat
  | 'x' => some 2
  | 'u' => some 4
  | 'U' => some 8
  | _ => none

/-- The character of an escape after its backslash, and the position after it. -/
def readEscape (c : Cursor) : Option (Char × Cursor) :=
  match c.peek 1 with
  | none => none
  | some x =>
      match letterEscape? x, escapeWidth? x with
      | some y, _ => some (y, c.skip 2)
      | none, some width =>
          let ds := (c.rest.drop 2).take width
          if ds.length = width then
            (Hex.number? ds).bind fun n =>
              if n < 0xD800 ∨ (0xDFFF < n ∧ n ≤ 0x10FFFF) then
                some (Char.ofNat n, c.skip (2 + width))
              else none
          else none
      | none, none => none

/-- Reads the characters of a quoted scalar up to a blank or its end, onto those read before,
which stand backwards. An escaped line end starts a gap. -/
def readQuotedRun (quote : Char) :
    Nat → List Char → Cursor → Option (List Char × Bool × Cursor)
  | 0, _, _ => none
  | fuel + 1, done, c =>
      match c.peek 0 with
      | none => some (done.reverse, false, c)
      | some x =>
          if isBlank x || isBreak x then some (done.reverse, false, c)
          else if quote == '\'' && x == '\'' && c.sees 1 '\'' then
            readQuotedRun quote fuel ('\'' :: done) (c.skip 2)
          else if x == quote then some (done.reverse, false, c)
          else if quote == '"' && x == '\\' then
            if (c.peek 1).any isBreak then some (done.reverse, true, (c.skip 1).skipBreak)
            else
              match readEscape c with
              | some (y, c) => readQuotedRun quote fuel (y :: done) c
              | none => none
          else readQuotedRun quote fuel (x :: done) (c.skip 1)

/-- Reads a quoted scalar on, from after its opening quote. -/
def readQuotedFrom (quote : Char) : Nat → List Char → Cursor → Option (List Char × Cursor)
  | 0, _, _ => none
  | fuel + 1, done, c =>
      if c.atDocumentMark || c.atEnd then none
      else
        match readQuotedRun quote (c.rest.length + 1) [] c with
        | none => none
        | some (run, escaped, c) =>
            let done := done ++ run
            if c.sees 0 quote then some (done, c.skip 1)
            else
              match readGap none (c.rest.length + 1) { Gap.none with broken := escaped } c with
              | none => none
              | some (gap, c) => readQuotedFrom quote fuel (done ++ gap.folded) c

/-- Reads a quoted scalar from its opening quote. -/
def readQuoted (quote : Char) (c : Cursor) : Option (List Char × Cursor) :=
  readQuotedFrom quote (c.rest.length + 1) [] (c.skip 1)

/-- What happens to the line ends at the end of a block scalar. -/
inductive Chomping where
  | strip
  | clip
  | keep
  deriving DecidableEq, Repr

/-- Reads one of the two marks for the line ends. -/
def readChomping (c : Cursor) : Option (Chomping × Cursor) :=
  if c.sees 0 '+' then some (.keep, c.skip 1)
  else if c.sees 0 '-' then some (.strip, c.skip 1)
  else none

/-- Reads the digit of a stated indentation; zero is refused. -/
def readIncrement (c : Cursor) : Option (Option Nat × Cursor) :=
  match c.peek 0 with
  | some x =>
      if x == '0' then none
      else if x.isDigit then some (some (x.toNat - 48), c.skip 1)
      else some (none, c)
  | none => some (none, c)

/-- Reads the marks of a block scalar, in either order, to the end of the line. -/
def readBlockHeader (c : Cursor) : Option (Chomping × Option Nat × Cursor) := do
  let (chomping, increment, c) ← match readChomping c with
    | some (chomping, c) => do
        let (increment, c) ← readIncrement c
        some (chomping, increment, c)
    | none => do
        let (increment, c) ← readIncrement c
        match increment.bind fun _ => readChomping c with
        | some (chomping, c) => some (chomping, increment, c)
        | none => some (.clip, increment, c)
  let c := c.skipBlanks
  let c := if c.sees 0 '#' then c.skipLine else c
  if c.atEnd then some (chomping, increment, c)
  else if c.atBreak then some (chomping, increment, c.skipBreak)
  else none

/-- Reads the indentation of lines and the empty lines. Without a known indentation every space
counts. Also tells the greatest column reached. -/
def readIndents (indent : Option Nat) :
    Nat → Nat → List Char → Cursor → Option (Nat × List Char × Cursor)
  | 0, widest, breaks, c => some (widest, breaks, c)
  | fuel + 1, widest, breaks, c =>
      let room := fun (c : Cursor) => match indent with
        | some i => i - c.column
        | none => c.rest.length
      let c := c.skip ((c.rest.take (room c)).takeWhile (· == ' ')).length
      let widest := max widest c.column
      if c.sees 0 '\t' && (match indent with
          | some i => decide (c.column < i)
          | none => true) then none
      else if c.atBreak then readIndents indent fuel widest (breaks ++ c.breakText) c.skipBreak
      else some (widest, breaks, c)

/-- The line ends that are pending between two lines of a block scalar. -/
structure Pending where
  leading : List Char
  trailing : List Char
  leadingBlank : Bool

/-- Reads the lines of a block scalar at a known indentation. -/
def readBlockLines (literal : Bool) (indent : Nat) :
    Nat → List Char → Pending → Cursor → Option (List Char × Pending × Cursor)
  | 0, done, pending, c => some (done, pending, c)
  | fuel + 1, done, pending, c =>
      if c.column != indent || c.atEnd then some (done, pending, c)
      else
        let blank := c.atBlank
        let joint :=
          if !literal && pending.leading == ['\n'] && !pending.leadingBlank && !blank then
            (if pending.trailing.isEmpty then [' '] else [])
          else pending.leading
        let (content, c) := c.takeWhile fun x => !isBreak x
        let leading := c.breakText
        let c := if c.atBreak then c.skipBreak else c
        match readIndents (some indent) (c.rest.length + 1) 0 [] c with
        | none => none
        | some (_, trailing, c) =>
            readBlockLines literal indent fuel (done ++ joint ++ pending.trailing ++ content)
              { leading, trailing, leadingBlank := blank } c

/-- Reads a block scalar from its mark. An indentation that is not stated is that of the first
line that is not empty, but deeper than what the scalar belongs to. -/
def readBlock (literal : Bool) (parentIndent : Int) (c : Cursor) : Option (List Char × Cursor) := do
  let (chomping, increment, c) ← readBlockHeader (c.skip 1)
  let stated := increment.map fun n => if 0 ≤ parentIndent then parentIndent.toNat + n else n
  let (widest, breaks, c) ← readIndents stated (c.rest.length + 1) 0 [] c
  let indent := stated.getD (max 1 (max widest (parentIndent + 1).toNat))
  let (text, pending, c) ← readBlockLines literal indent (c.rest.length + 1) []
    { leading := [], trailing := breaks, leadingBlank := false } c
  let text := if chomping = .strip then text else text ++ pending.leading
  let text := if chomping = .keep then text ++ pending.trailing else text
  some (text, c)

end SdkEvidence.Yaml
