import SdkEvidence.Bytes.Hex
import SdkEvidence.Decimal.Binary64

/-!
# TOML values and scalars

What a document holds, and its keys, strings, numbers and times as they are written.
-/

/-! ## TOML values

A document is a table. Tables remember how they came about, since that decides who may add to
them: a header opens a table once, a dotted key adds only to tables made by dotted keys.
-/
namespace SdkEvidence

/-- How a table came about. -/
inductive TomlOrigin where
  | header
  | implied
  | dotted
  | inline
  deriving DecidableEq, Repr

/-- A TOML value. Floats and times are checked and not kept. -/
inductive Toml where
  | string (s : String)
  | integer (n : Int)
  | float
  | boolean (b : Bool)
  | time
  | array (items : List Toml)
  | table (origin : TomlOrigin) (members : List (String × Toml))
  | tables (items : List (List (String × Toml)))
  deriving Repr

/-- The members of a table, in order. -/
abbrev TomlMembers := List (String × Toml)

namespace TomlMembers

/-- The value of a key. -/
def get? (members : TomlMembers) (key : String) : Option Toml :=
  (members.find? fun m => m.1 == key).map Prod.snd

/-- Sets the value of a key, in its place or at the end. -/
def set (members : TomlMembers) (key : String) (value : Toml) : TomlMembers :=
  if members.any fun m => m.1 == key then
    members.map fun m => if m.1 == key then (key, value) else m
  else members ++ [(key, value)]

/-- The members without a key. -/
def erase (members : TomlMembers) (key : String) : TomlMembers :=
  members.filter fun m => m.1 != key

end TomlMembers
end SdkEvidence

/-! ## TOML scalars

Keys, strings, numbers and times. A number or time is read from the longest run of characters
that could belong to one, so that what follows it must be a separator.
-/
namespace SdkEvidence.Toml

/-- Blanks inside a line. -/
def isInlineBlank (c : Char) : Bool :=
  c == ' ' || c == '\t'

/-- Drops the blanks at the start. -/
def skipInline (text : List Char) : List Char :=
  text.dropWhile isInlineBlank

/-- Whether the character may stand in a comment or a literal string. -/
def isPrintable (c : Char) : Bool :=
  c == '\t' || (0x20 ≤ c.toNat && c.toNat != 0x7F)

/-- The rest of a text after a line end, if it starts with one. -/
def lineEnd? : List Char → Option (List Char)
  | '\n' :: rest => some rest
  | '\r' :: '\n' :: rest => some rest
  | _ => none

/-- Drops a comment, if the text starts with one; the characters of a comment are printable. -/
def skipComment (text : List Char) : List Char :=
  match text with
  | '#' :: rest => rest.dropWhile isPrintable
  | rest => rest

/-- Drops blanks, comments and line ends. Every round takes a character. -/
def skipLines : Nat → List Char → List Char
  | 0, text => text
  | fuel + 1, text =>
      let text := skipComment (skipInline text)
      match lineEnd? text with
      | some rest => skipLines fuel rest
      | none => text

/-- Whether the character may stand in a key without quotes. -/
def isBareKey (c : Char) : Bool :=
  c.isAlphanum && c.toNat < 128 || c == '_' || c == '-'

/-- The character of a numbered escape. -/
def scalarValue? (ds : List Char) : Option Char :=
  (Hex.number? ds).bind fun n =>
    if n < 0xD800 ∨ (0xDFFF < n ∧ n ≤ 0x10FFFF) then some (Char.ofNat n) else none

/-- The character of an escape after its backslash, and what follows it. -/
def escape? : List Char → Option (Char × List Char)
  | 'b' :: rest => some ('\x08', rest)
  | 't' :: rest => some ('\t', rest)
  | 'n' :: rest => some ('\n', rest)
  | 'f' :: rest => some ('\x0c', rest)
  | 'r' :: rest => some ('\r', rest)
  | '"' :: rest => some ('"', rest)
  | '\\' :: rest => some ('\\', rest)
  | 'u' :: a :: b :: c :: d :: rest => (scalarValue? [a, b, c, d]).map (·, rest)
  | 'U' :: a :: b :: c :: d :: e :: f :: g :: h :: rest =>
      (scalarValue? [a, b, c, d, e, f, g, h]).map (·, rest)
  | _ => none

/-- Reads a basic string from after its quote, onto what was read, which stands backwards. -/
def readBasic : Nat → List Char → List Char → Option (String × List Char)
  | 0, _, _ => none
  | fuel + 1, done, text =>
      match text with
      | '"' :: rest => some (String.ofList done.reverse, rest)
      | '\\' :: rest =>
          match escape? rest with
          | some (c, rest) => readBasic fuel (c :: done) rest
          | none => none
      | c :: rest => if isPrintable c then readBasic fuel (c :: done) rest else none
      | [] => none

/-- Reads a literal string from after its quote. -/
def readLiteral (text : List Char) : Option (String × List Char) :=
  let content := text.takeWhile fun c => isPrintable c && c != '\''
  match text.drop content.length with
  | '\'' :: rest => some (String.ofList content, rest)
  | _ => none

/-- Drops blanks and line ends. -/
def skipBlankLines : List Char → List Char
  | '\r' :: '\n' :: rest => skipBlankLines rest
  | c :: rest => if isInlineBlank c || c == '\n' then skipBlankLines rest else c :: rest
  | [] => []

/-- What follows a backslash at the end of a line: all blanks and line ends are dropped. -/
def foldedLine? (text : List Char) : Option (List Char) :=
  (lineEnd? (skipInline text)).map skipBlankLines

/-- The end of a string over several lines, with up to two quotes before the closing three. -/
def closing? (quote : Char) (text : List Char) : Option (List Char × List Char) :=
  let count := (text.takeWhile (· == quote)).length
  if count < 3 then none
  else
    let kept := min (count - 3) 2
    some (List.replicate kept quote, text.drop (kept + 3))

/-- Reads a basic string over several lines, onto what was read, which stands backwards. -/
def readLongBasic : Nat → List Char → List Char → Option (String × List Char)
  | 0, _, _ => none
  | fuel + 1, done, text =>
      match closing? '"' text with
      | some (kept, rest) => some (String.ofList (done.reverse ++ kept), rest)
      | none =>
          match text with
          | '\\' :: rest =>
              match escape? rest, foldedLine? rest with
              | some (c, rest), _ => readLongBasic fuel (c :: done) rest
              | none, some rest => readLongBasic fuel done rest
              | none, none => none
          | c :: rest =>
              match lineEnd? (c :: rest) with
              | some rest => readLongBasic fuel ('\n' :: done) rest
              | none => if isPrintable c then readLongBasic fuel (c :: done) rest else none
          | [] => none

/-- Reads a literal string over several lines, onto what was read, which stands backwards. -/
def readLongLiteral : Nat → List Char → List Char → Option (String × List Char)
  | 0, _, _ => none
  | fuel + 1, done, text =>
      match closing? '\'' text with
      | some (kept, rest) => some (String.ofList (done.reverse ++ kept), rest)
      | none =>
          match text with
          | c :: rest =>
              match lineEnd? (c :: rest) with
              | some rest => readLongLiteral fuel ('\n' :: done) rest
              | none => if isPrintable c then readLongLiteral fuel (c :: done) rest else none
          | [] => none

/-- A text without the line end at its start. -/
def dropLineEnd (text : List Char) : List Char :=
  (lineEnd? text).getD text

/-- Reads a string of any of the four kinds. -/
def readString (text : List Char) : Option (String × List Char) :=
  match text with
  | '"' :: '"' :: '"' :: rest => readLongBasic (rest.length + 1) [] (dropLineEnd rest)
  | '"' :: rest => readBasic (rest.length + 1) [] rest
  | '\'' :: '\'' :: '\'' :: rest => readLongLiteral (rest.length + 1) [] (dropLineEnd rest)
  | '\'' :: rest => readLiteral rest
  | _ => none

/-- Reads one part of a key. -/
def readKeyPart (text : List Char) : Option (String × List Char) :=
  match text with
  | '"' :: rest => readBasic (rest.length + 1) [] rest
  | '\'' :: rest => readLiteral rest
  | rest =>
      let bare := rest.takeWhile isBareKey
      if bare.isEmpty then none else some (String.ofList bare, rest.drop bare.length)

/-- Reads the parts of a key, separated by dots that may have blanks around them. -/
def readKey : Nat → List Char → Option (List String × List Char)
  | 0, _ => none
  | fuel + 1, text => do
      let (part, rest) ← readKeyPart (skipInline text)
      match skipInline rest with
      | '.' :: rest =>
          let (more, rest) ← readKey fuel rest
          some (part :: more, rest)
      | rest => some ([part], rest)

/-- The digits of a run in which single underscores may stand between digits. -/
def plainDigits? (isDigit : Char → Bool) : List Char → Option (List Char)
  | [] => none
  | [c] => if isDigit c then some [c] else none
  | c :: '_' :: rest => if isDigit c then (plainDigits? isDigit rest).map (c :: ·) else none
  | c :: rest => if isDigit c then (plainDigits? isDigit rest).map (c :: ·) else none

/-- The value of digits in a base. -/
def digitsIn (base : Nat) (ds : List Char) : Nat :=
  ds.foldl (fun n c => n * base + (Hex.digitValue? c).getD 0) 0

/-- A number in the range of integers. -/
def inRange? (n : Int) : Option Toml :=
  if -0x8000000000000000 ≤ n ∧ n < 0x8000000000000000 then some (.integer n) else none

/-- Whether the character is a digit of the base. -/
def isDigitOf (base : Nat) (c : Char) : Bool :=
  match Hex.digitValue? c with
  | some n => n < base
  | none => false

/-- The sign of a token, and the rest. -/
def splitSign : List Char → Bool × List Char
  | '-' :: rest => (true, rest)
  | '+' :: rest => (false, rest)
  | rest => (false, rest)

/-- The digits of a decimal integer part: no zero in front of others. -/
def wholeDigits? (token : List Char) : Option (List Char) :=
  (plainDigits? Char.isDigit token).bind fun ds =>
    if ds.head? = some '0' ∧ 1 < ds.length then none else some ds

/-- An integer that fills a token. -/
def integer? (token : List Char) : Option Toml :=
  let radix (base : Nat) (ds : List Char) : Option Toml :=
    (plainDigits? (isDigitOf base) ds).bind fun ds => inRange? (digitsIn base ds)
  match token with
  | '0' :: 'x' :: ds => radix 16 ds
  | '0' :: 'o' :: ds => radix 8 ds
  | '0' :: 'b' :: ds => radix 2 ds
  | _ =>
      let (negative, ds) := splitSign token
      (wholeDigits? ds).bind fun ds =>
        let n : Int := digitsIn 10 ds
        inRange? (if negative then -n else n)

/-- A token cut at the first character that satisfies a test. -/
def cutAt (test : Char → Bool) (token : List Char) : List Char × Option (List Char) :=
  let before := token.takeWhile fun c => !test c
  match token.drop before.length with
  | _ :: rest => (before, some rest)
  | [] => (before, none)

/-- A float that fills a token. A positive value beyond the greatest one is none. -/
def float? (token : List Char) : Option Toml :=
  let (negative, rest) := splitSign token
  if rest = ['i', 'n', 'f'] ∨ rest = ['n', 'a', 'n'] then some .float
  else
    let (number, power) := cutAt (fun c => c == 'e' || c == 'E') rest
    let (whole, fraction) := cutAt (· == '.') number
    if fraction.isNone && power.isNone then none
    else do
      let whole ← wholeDigits? whole
      let fraction ← match fraction with
        | none => some []
        | some ds => plainDigits? Char.isDigit ds
      let exponent ← match power with
        | none => some 0
        | some ds =>
            let (down, ds) := splitSign ds
            (plainDigits? Char.isDigit ds).map fun ds =>
              let n : Int := digitsIn 10 ds
              if down then -n else n
      let digits := digitsIn 10 (whole ++ fraction)
      let value := Decimal.Binary64.ofDecimal? digits (exponent - fraction.length)
      if value.isNone && !negative then none else some .float

/-- The number of exactly `width` digits at the start of a text. -/
def takeDigits (width : Nat) (text : List Char) : Option (Nat × List Char) :=
  let ds := text.take width
  if ds.length = width ∧ ds.all Char.isDigit then some (digitsIn 10 ds, text.drop width) else none

/-- The rest of a text after a character that it starts with. -/
def dropChar (c : Char) : List Char → Option (List Char)
  | d :: rest => if d = c then some rest else none
  | [] => none

/-- How many days a month has. -/
def daysInMonth (year month : Nat) : Nat :=
  if month = 2 then (if year % 4 = 0 ∧ (year % 100 ≠ 0 ∨ year % 400 = 0) then 29 else 28)
  else if month = 4 ∨ month = 6 ∨ month = 9 ∨ month = 11 then 30
  else 31

/-- Drops a date. -/
def dropDate (text : List Char) : Option (List Char) := do
  let (year, rest) ← takeDigits 4 text
  let (month, rest) ← takeDigits 2 (← dropChar '-' rest)
  let (day, rest) ← takeDigits 2 (← dropChar '-' rest)
  if 1 ≤ month ∧ month ≤ 12 ∧ 1 ≤ day ∧ day ≤ daysInMonth year month then some rest else none

/-- Drops a time of day. -/
def dropClock (text : List Char) : Option (List Char) := do
  let (hour, rest) ← takeDigits 2 text
  let (minute, rest) ← takeDigits 2 (← dropChar ':' rest)
  let (second, rest) ← takeDigits 2 (← dropChar ':' rest)
  if 23 < hour ∨ 59 < minute ∨ 60 < second then none
  else
    match rest with
    | '.' :: c :: more =>
        if c.isDigit then some (more.dropWhile Char.isDigit) else some rest
    | _ => some rest

/-- Drops the distance to universal time, if one is stated. -/
def dropOffset (text : List Char) : List Char :=
  match text with
  | 'Z' :: rest => rest
  | 'z' :: rest => rest
  | '+' :: rest | '-' :: rest =>
      let stated := do
        let (hour, rest) ← takeDigits 2 rest
        let (minute, rest) ← takeDigits 2 (← dropChar ':' rest)
        if hour ≤ 23 ∧ minute ≤ 59 then some rest else none
      stated.getD text
  | _ => text

/-- Drops a date, a time of day, or both. -/
def dropTime (text : List Char) : Option (List Char) :=
  match dropDate text with
  | some rest =>
      match rest with
      | c :: more =>
          if c = 'T' ∨ c = 't' ∨ c = ' ' then
            match dropClock more with
            | some rest => some (dropOffset rest)
            | none => some rest
          else some rest
      | [] => some []
  | none => dropClock text

/-- Whether the character may stand in a number. -/
def isNumberChar (c : Char) : Bool :=
  c.isAlphanum || c == '+' || c == '-' || c == '_' || c == '.'

/-- Reads a number, a time, or a truth value. -/
def readPlain (text : List Char) : Option (Toml × List Char) :=
  match dropTime text with
  | some rest => some (.time, rest)
  | none =>
      let token := text.takeWhile isNumberChar
      let rest := text.drop token.length
      if token = ['t', 'r', 'u', 'e'] then some (.boolean true, rest)
      else if token = ['f', 'a', 'l', 's', 'e'] then some (.boolean false, rest)
      else ((integer? token).orElse fun _ => float? token).map (·, rest)

end SdkEvidence.Toml
