import SdkEvidence.Yaml.Scalar

/-!
# YAML tokens

A text is cut into tokens. Indentation becomes tokens that open and close block collections. A
key of a mapping is known as such only when its colon is met; the token that announces it is then
put in front of it.
-/
namespace SdkEvidence.Yaml

/-- A token. -/
inductive Token where
  | version (major minor : Nat)
  | tagPrefix (handle lead : String)
  | documentStart
  | documentEnd
  | blockSequence
  | blockMapping
  | blockEnd
  | flowSequence
  | flowSequenceEnd
  | flowMapping
  | flowMappingEnd
  | blockEntry
  | flowEntry
  | key
  | value
  | alias (name : String)
  | anchor (name : String)
  | tag (handle suffix : String)
  | scalar (text : String) (plain : Bool)
  | streamEnd
  deriving DecidableEq, Repr

/-- Where a key may have started. It must turn out to be one if it stands at the indentation. -/
structure KeySpot where
  required : Bool
  position : Nat
  index : Nat
  line : Nat
  column : Nat
  deriving Repr

/-- The state between tokens. `keys` has one place for each level of flow collections, the
innermost first, and one for the block context. -/
structure Lexer where
  cursor : Cursor
  tokens : Array Token
  flow : Nat
  indent : Int
  indents : List Int
  keyAllowed : Bool
  keys : List (Option KeySpot)

namespace Lexer

/-- The state before the first token. -/
def start (text : List Char) : Lexer :=
  { cursor := Cursor.start text, tokens := #[], flow := 0, indent := -1, indents := [],
    keyAllowed := true, keys := [none] }

/-- Whether the position is inside a flow collection. -/
def inFlow (s : Lexer) : Bool :=
  0 < s.flow

/-- Adds a token. -/
def push (s : Lexer) (token : Token) : Lexer :=
  { s with tokens := s.tokens.push token }

/-- Drops blanks, comments and line ends before a token. Tabs are blanks only where no key may
start. -/
def toToken : Nat → Lexer → Lexer
  | 0, s => s
  | fuel + 1, s =>
      let tabs := s.inFlow || !s.keyAllowed
      let c := (s.cursor.takeWhile fun x => x == ' ' || (tabs && x == '\t')).2
      let c := if c.sees 0 '#' then c.skipLine else c
      if c.atBreak then
        toToken fuel { s with cursor := c.skipBreak, keyAllowed := s.keyAllowed || !s.inFlow }
      else { s with cursor := c }

/-- A key spot that lies on an earlier line or too far back is none. -/
def fresh? (c : Cursor) : Option KeySpot → Option (Option KeySpot)
  | none => some none
  | some spot =>
      if spot.line < c.line ∨ spot.index + 1024 < c.index then
        (if spot.required then none else some none)
      else some (some spot)

/-- Drops the key spots that are out of reach. -/
def dropStaleKeys (s : Lexer) : Option Lexer :=
  (s.keys.mapM (fresh? s.cursor)).map fun keys => { s with keys }

/-- Forgets the innermost key spot; a required one cannot be forgotten. -/
def forgetKey (s : Lexer) : Option Lexer :=
  match s.keys with
  | some spot :: rest => if spot.required then none else some { s with keys := none :: rest }
  | _ => some s

/-- Remembers that a key may start here. -/
def rememberKey (s : Lexer) : Option Lexer :=
  if s.keyAllowed then
    (s.forgetKey).map fun s =>
      let spot : KeySpot :=
        { required := !s.inFlow && s.indent == (s.cursor.column : Int), position := s.tokens.size,
          index := s.cursor.index, line := s.cursor.line, column := s.cursor.column }
      { s with keys := some spot :: s.keys.drop 1 }
  else some s

/-- Opens a block collection at a column that is deeper than the indentation, with its token at
the given place. -/
def indentTo (s : Lexer) (column : Nat) (position : Nat) (token : Token) : Lexer :=
  if !s.inFlow && s.indent < (column : Int) then
    { s with indents := s.indent :: s.indents, indent := column,
             tokens := s.tokens.insertIdx! (min position s.tokens.size) token }
  else s

/-- Closes the block collections that are deeper than a column. -/
def closeTo (s : Lexer) (column : Int) : Lexer :=
  if s.inFlow then s
  else
    let rec close : List Int → Int → Array Token → List Int × Int × Array Token
      | above :: rest, indent, tokens =>
          if column < indent then close rest above (tokens.push .blockEnd)
          else (above :: rest, indent, tokens)
      | [], indent, tokens => ([], indent, tokens)
    let (indents, indent, tokens) := close s.indents s.indent s.tokens
    { s with indents, indent, tokens }

/-- A token of fixed width that stands next. -/
def take (s : Lexer) (width : Nat) (token : Token) : Lexer :=
  { s.push token with cursor := s.cursor.skip width }

/-- Reads a number of a version. -/
def readVersionNumber (c : Cursor) : Option (Nat × Cursor) :=
  let (ds, c) := c.takeWhile Char.isDigit
  if ds.isEmpty ∨ 9 < ds.length then none
  else some (ds.foldl (fun n d => n * 10 + (d.toNat - 48)) 0, c)

/-- The characters of a tag beyond its handle; some only between angle brackets. -/
def isTagChar (verbatim : Bool) (x : Char) : Bool :=
  isNameChar x || ";/?:@&=+$.!~*'()%".toList.contains x || (verbatim && ",[]".toList.contains x)

/-- Reads the bytes of a run of escapes in a tag as one character. -/
def readTagEscape (c : Cursor) : Option (Char × Cursor) :=
  let byte (n : Nat) : Option Nat :=
    if c.sees (3 * n) '%' then Hex.number? ((c.rest.drop (3 * n + 1)).take 2) else none
  let tail (n : Nat) : Option Nat :=
    (byte n).bind fun b => if b / 64 = 2 then some (b % 64) else none
  match byte 0 with
  | none => none
  | some b =>
      if b < 0x80 then some (Char.ofNat b, c.skip 3)
      else if b / 32 = 6 then (tail 1).map fun x => (Char.ofNat (b % 32 * 64 + x), c.skip 6)
      else if b / 16 = 14 then
        match tail 1, tail 2 with
        | some x, some y => some (Char.ofNat (b % 16 * 4096 + x * 64 + y), c.skip 9)
        | _, _ => none
      else if b / 8 = 30 then
        match tail 1, tail 2, tail 3 with
        | some x, some y, some z =>
            some (Char.ofNat (b % 8 * 262144 + x * 4096 + y * 64 + z), c.skip 12)
        | _, _, _ => none
      else none

/-- Reads the characters of a tag, onto those read before, which stand backwards. -/
def readTagChars (verbatim : Bool) : Nat → List Char → Cursor → Option (List Char × Cursor)
  | 0, done, c => some (done.reverse, c)
  | fuel + 1, done, c =>
      match c.peek 0 with
      | none => some (done.reverse, c)
      | some x =>
          if x == '%' then
            match readTagEscape c with
            | some (y, c) => readTagChars verbatim fuel (y :: done) c
            | none => none
          else if isTagChar verbatim x then readTagChars verbatim fuel (x :: done) (c.skip 1)
          else some (done.reverse, c)

/-- Reads a handle: names between exclamation marks, of which the second may be missing. -/
def readHandle (c : Cursor) : Option (List Char × Cursor) :=
  if !c.sees 0 '!' then none
  else
    let (name, c) := (c.skip 1).takeWhile isNameChar
    if c.sees 0 '!' then some ('!' :: name ++ ['!'], c.skip 1) else some ('!' :: name, c)

/-- Reads a tag. -/
def readTag (c : Cursor) : Option (Token × Cursor) :=
  if c.sees 1 '<' then do
    let (suffix, c) ← readTagChars true (c.rest.length + 1) [] (c.skip 2)
    if suffix.isEmpty || !c.sees 0 '>' then none
    else some (.tag "" (String.ofList suffix), c.skip 1)
  else do
    let (handle, c) ← readHandle c
    if 1 < handle.length && handle.getLast? == some '!' then
      let (suffix, c) ← readTagChars false (c.rest.length + 1) [] c
      if suffix.isEmpty then none
      else some (.tag (String.ofList handle) (String.ofList suffix), c)
    else
      let (more, c) ← readTagChars false (c.rest.length + 1) [] c
      let suffix := handle.drop 1 ++ more
      if suffix.isEmpty then some (.tag "" "!", c) else some (.tag "!" (String.ofList suffix), c)

/-- Reads a directive line. -/
def readDirective (c : Cursor) : Option (Token × Cursor) := do
  let (name, c) := (c.skip 1).takeWhile isNameChar
  if name.isEmpty || !c.gapAt 0 then none
  else
    let (token, c) ←
      if name = "YAML".toList then do
        let (major, c) ← readVersionNumber c.skipBlanks
        if !c.sees 0 '.' then none
        else
          let (minor, c) ← readVersionNumber (c.skip 1)
          some (Token.version major minor, c)
      else if name = "TAG".toList then do
        let (handle, c) ← readHandle c.skipBlanks
        if handle ≠ ['!'] ∧ handle.getLast? ≠ some '!' then none
        else if !c.atBlank then none
        else
          let (lead, c) ← readTagChars true (c.rest.length + 1) [] c.skipBlanks
          if lead.isEmpty || !c.gapAt 0 then none
          else some (Token.tagPrefix (String.ofList handle) (String.ofList lead), c)
      else none
    let c := c.skipBlanks
    let c := if c.sees 0 '#' then c.skipLine else c
    if c.atEnd then some (token, c)
    else if c.atBreak then some (token, c.skipBreak)
    else none

/-- Reads the name of an anchor or alias. -/
def readAnchorName (c : Cursor) : Option (String × Cursor) :=
  let (name, c) := (c.skip 1).takeWhile isNameChar
  if name.isEmpty then none
  else if c.gapAt 0 || c.seesOneOf 0 ['?', ':', ',', ']', '\x7d', '%', '@', '\x60'] then
    some (String.ofList name, c)
  else none

/-- The end of the text closes everything. -/
def atStreamEnd (s : Lexer) : Option Lexer := do
  let s ← (s.closeTo (-1)).forgetKey
  some ({ s with keyAllowed := false }.push .streamEnd)

/-- A directive or a mark between documents closes everything. -/
def betweenDocuments (s : Lexer) : Option Lexer := do
  let s ← (s.closeTo (-1)).forgetKey
  some { s with keyAllowed := false }

/-- The start of a flow collection may be a key. -/
def openFlow (s : Lexer) (token : Token) : Option Lexer := do
  let s ← s.rememberKey
  some { s.take 1 token with flow := s.flow + 1, keys := none :: s.keys, keyAllowed := true }

/-- The end of a flow collection. -/
def closeFlow (s : Lexer) (token : Token) : Option Lexer := do
  let s ← s.forgetKey
  let s := { s.take 1 token with keyAllowed := false }
  some (if s.inFlow then { s with flow := s.flow - 1, keys := s.keys.drop 1 } else s)

/-- An entry of a block sequence, which may open the sequence. -/
def blockEntry (s : Lexer) : Option Lexer := do
  if !s.inFlow && !s.keyAllowed then none
  else
    let s := s.indentTo s.cursor.column s.tokens.size .blockSequence
    let s ← s.forgetKey
    some { s.take 1 .blockEntry with keyAllowed := true }

/-- A key that is announced by a question mark. -/
def explicitKey (s : Lexer) : Option Lexer := do
  if !s.inFlow && !s.keyAllowed then none
  else
    let s := s.indentTo s.cursor.column s.tokens.size .blockMapping
    let s ← s.forgetKey
    some { s.take 1 .key with keyAllowed := !s.inFlow }

/-- The colon after a key. What stood at the key spot is the key. -/
def valueMark (s : Lexer) : Option Lexer :=
  match s.keys with
  | some spot :: rest =>
      let tokens := s.tokens.insertIdxIfInBounds spot.position .key
      let s := { s with tokens, keys := none :: rest }
      let s := s.indentTo spot.column spot.position .blockMapping
      some { s.take 1 .value with keyAllowed := false }
  | _ =>
      if !s.inFlow && !s.keyAllowed then none
      else
        let s := s.indentTo s.cursor.column s.tokens.size .blockMapping
        some { s.take 1 .value with keyAllowed := !s.inFlow }

/-- A token that may be a key, read by a function on the position. -/
def mayBeKey (s : Lexer) (read : Cursor → Option (Token × Cursor)) : Option Lexer := do
  let s ← s.rememberKey
  let (token, cursor) ← read s.cursor
  some { s.push token with cursor, keyAllowed := false }

/-- A scalar between quotes. -/
def quotedScalar (quote : Char) (c : Cursor) : Option (Token × Cursor) :=
  (readQuoted quote c).map fun (text, c) => (.scalar (String.ofList text) false, c)

/-- A tag ends at a gap, or at a comma inside a flow collection. -/
def tag (s : Lexer) : Option Lexer := do
  let s ← s.mayBeKey readTag
  if (s.inFlow && s.cursor.sees 0 ',') || s.cursor.gapAt 0 then some s else none

/-- A block scalar. A key may follow it. -/
def blockScalar (s : Lexer) (literal : Bool) : Option Lexer := do
  let s ← s.forgetKey
  let (text, cursor) ← readBlock literal s.indent s.cursor
  some { s.push (.scalar (String.ofList text) false) with cursor, keyAllowed := true }

/-- A plain scalar. A key may follow it when it ended on a new line. -/
def plainScalar (s : Lexer) : Option Lexer := do
  let s ← s.rememberKey
  let (text, broken, cursor) ← readPlain s.inFlow s.indent s.cursor
  some { s.push (.scalar (String.ofList text) true) with cursor, keyAllowed := broken }

/-- The characters that start no plain scalar, as far as nothing else decides. -/
def marks : List Char :=
  "-?:,[]\x7b\x7d#&*!|>'\"%@`".toList

/-- Whether a plain scalar starts with the character that stands next. -/
def startsPlain (s : Lexer) : Bool :=
  let c := s.cursor
  let nextBlank := (c.peek 1).any isBlank
  !(c.gapAt 0 || c.seesOneOf 0 marks)
    || (c.sees 0 '-' && !nextBlank)
    || (!s.inFlow && (c.sees 0 '?' || c.sees 0 ':') && !c.gapAt 1)

/-- Goes to where the next token starts. What the way there ends is closed. -/
def settle (s : Lexer) : Option Lexer :=
  (toToken (s.cursor.rest.length + 1) s).dropStaleKeys.map fun s => s.closeTo s.cursor.column

/-- Reads the token that stands next. -/
def read (s : Lexer) : Option Lexer := do
  let c := s.cursor
  if c.atEnd then s.atStreamEnd
  else if c.column == 0 && c.sees 0 '%' then
    let s ← s.betweenDocuments
    let (token, cursor) ← readDirective s.cursor
    some { s.push token with cursor }
  else if c.atDocumentMark then
    let s ← s.betweenDocuments
    some (s.take 3 (if c.sees 0 '-' then .documentStart else .documentEnd))
  else if c.sees 0 '[' then s.openFlow .flowSequence
  else if c.sees 0 '\x7b' then s.openFlow .flowMapping
  else if c.sees 0 ']' then s.closeFlow .flowSequenceEnd
  else if c.sees 0 '\x7d' then s.closeFlow .flowMappingEnd
  else if c.sees 0 ',' then
    let s ← s.forgetKey
    some { s.take 1 .flowEntry with keyAllowed := true }
  else if c.sees 0 '-' && c.gapAt 1 then s.blockEntry
  else if c.sees 0 '?' && (s.inFlow || c.gapAt 1) then s.explicitKey
  else if c.sees 0 ':' && (s.inFlow || c.gapAt 1) then s.valueMark
  else if c.sees 0 '*' then
    s.mayBeKey fun c => (readAnchorName c).map fun (name, c) => (.alias name, c)
  else if c.sees 0 '&' then
    s.mayBeKey fun c => (readAnchorName c).map fun (name, c) => (.anchor name, c)
  else if c.sees 0 '!' then s.tag
  else if c.sees 0 '|' && !s.inFlow then s.blockScalar true
  else if c.sees 0 '>' && !s.inFlow then s.blockScalar false
  else if c.sees 0 '\'' then
    s.mayBeKey (quotedScalar '\'')
  else if c.sees 0 '"' then
    s.mayBeKey (quotedScalar '"')
  else if s.startsPlain then s.plainScalar
  else none

/-- Reads the next token. -/
def next (s : Lexer) : Option Lexer :=
  s.settle.bind read

/-- Reads tokens to the end of the text. Every token but the last takes at least one character. -/
def run : Nat → Lexer → Option (List Token)
  | 0, _ => none
  | fuel + 1, s =>
      match s.next with
      | none => none
      | some s => if s.tokens.back? = some .streamEnd then some s.tokens.toList else run fuel s

end Lexer

/-- The tokens of a text. A byte order mark may stand in front. -/
def tokens? (text : List Char) : Option (List Token) :=
  if text.all isAllowed then
    let body := match text with
      | '\uFEFF' :: rest => rest
      | rest => rest
    Lexer.run (body.length + 2) (Lexer.start body)
  else none

end SdkEvidence.Yaml
