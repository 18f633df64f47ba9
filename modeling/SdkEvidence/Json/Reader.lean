import SdkEvidence.Bytes.Hex
import SdkEvidence.Decimal.Binary64
import SdkEvidence.Json.Value

/-!
# Reading JSON

A text is one value with blanks around it. Containers may be nested to a fixed depth; strings
hold no raw control characters and no lone surrogates; numbers must have a finite value.
-/
namespace SdkEvidence.Json

/-- The blanks between tokens. -/
def isGap (c : Char) : Bool :=
  c == ' ' || c == '\n' || c == '\t' || c == '\r'

/-- The text from its first token on. -/
def skipGap (text : List Char) : List Char :=
  text.dropWhile isGap

/-- The character of a one-letter escape. -/
def shortEscape? : Char → Option Char
  | '"' => some '"'
  | '\\' => some '\\'
  | '/' => some '/'
  | 'b' => some '\x08'
  | 'f' => some '\x0c'
  | 'n' => some '\n'
  | 'r' => some '\r'
  | 't' => some '\t'
  | _ => none

/-- The character of a code unit that is no surrogate. -/
def plainUnit? (n : Nat) : Option Char :=
  if 0xD800 ≤ n ∧ n ≤ 0xDFFF then none else some (Char.ofNat n)

/-- The character of a high and a low surrogate. -/
def surrogatePair? (high low : Nat) : Option Char :=
  if 0xD800 ≤ high ∧ high ≤ 0xDBFF ∧ 0xDC00 ≤ low ∧ low ≤ 0xDFFF then
    some (Char.ofNat (0x10000 + (high - 0xD800) * 1024 + (low - 0xDC00)))
  else none

/-- Reads a string from after its opening quote; `done` is what was read, backwards. -/
def readString (done : List Char) : List Char → Option (String × List Char)
  | '"' :: rest => some (String.ofList done.reverse, rest)
  | '\\' :: 'u' :: a :: b :: c :: d :: '\\' :: 'u' :: e :: f :: g :: h :: rest =>
      match Hex.number? [a, b, c, d], Hex.number? [e, f, g, h] with
      | some high, some low =>
          match plainUnit? high with
          | some x =>
              match plainUnit? low with
              | some y => readString (y :: x :: done) rest
              | none => readString (x :: done) ('\\' :: 'u' :: e :: f :: g :: h :: rest)
          | none =>
              match surrogatePair? high low with
              | some x => readString (x :: done) rest
              | none => none
      | _, _ => none
  | '\\' :: 'u' :: a :: b :: c :: d :: rest =>
      match (Hex.number? [a, b, c, d]).bind plainUnit? with
      | some x => readString (x :: done) rest
      | none => none
  | '\\' :: c :: rest =>
      match shortEscape? c with
      | some x => readString (x :: done) rest
      | none => none
  | c :: rest => if c.toNat < 32 ∨ c = '\\' then none else readString (c :: done) rest
  | [] => none
termination_by text => text.length

/-- The digits at the start of a text, and what follows them. -/
def digits (text : List Char) : List Char × List Char :=
  (text.takeWhile Char.isDigit, text.dropWhile Char.isDigit)

/-- The number that a run of digits stands for. -/
def digitsValue (ds : List Char) : Nat :=
  ds.foldl (fun n c => n * 10 + (c.toNat - 48)) 0

/-- The parts of a number literal. -/
structure Literal where
  negative : Bool
  whole : List Char
  fraction : Option (List Char)
  power : Option (Char × List Char × List Char)

/-- Reads the fraction of a number, if there is one. -/
def readFraction : List Char → Option (Option (List Char) × List Char)
  | '.' :: rest =>
      let (ds, rest) := digits rest
      if ds.isEmpty then none else some (some ds, rest)
  | rest => some (none, rest)

/-- Reads the power of ten of a number, if there is one. -/
def readPower : List Char → Option (Option (Char × List Char × List Char) × List Char)
  | c :: rest =>
      if c = 'e' ∨ c = 'E' then
        let (sign, rest) := match rest with
          | '+' :: rest => (['+'], rest)
          | '-' :: rest => (['-'], rest)
          | rest => ([], rest)
        let (ds, rest) := digits rest
        if ds.isEmpty then none else some (some (c, sign, ds), rest)
      else some (none, c :: rest)
  | [] => some (none, [])

/-- The text of a number literal. -/
def Literal.chars (n : Literal) : List Char :=
  (if n.negative then ['-'] else []) ++ n.whole
    ++ (match n.fraction with
        | some ds => '.' :: ds
        | none => [])
    ++ (match n.power with
        | some (c, sign, ds) => c :: sign ++ ds
        | none => [])

/-- Whether the literal has a finite value. -/
def Literal.isFinite (n : Literal) : Bool :=
  let fraction := n.fraction.getD []
  let power : Int := match n.power with
    | some (_, sign, ds) => if sign = ['-'] then -(digitsValue ds : Int) else digitsValue ds
    | none => 0
  (Decimal.Binary64.ofDecimal? (digitsValue (n.whole ++ fraction)) (power - fraction.length)).isSome

/-- The value of a literal. -/
def Literal.toNumber (n : Literal) : JsonNumber :=
  if !n.negative && n.fraction.isNone && n.power.isNone then .natural (digitsValue n.whole)
  else .other (String.ofList n.chars)

/-- Reads a number. A zero in front is the whole integer part. -/
def readNumber (text : List Char) : Option (JsonNumber × List Char) := do
  let (negative, rest) := match text with
    | '-' :: rest => (true, rest)
    | rest => (false, rest)
  let (whole, rest) := digits rest
  if whole.isEmpty || (whole.head? == some '0' && 1 < whole.length) then none
  else
    let (fraction, rest) ← readFraction rest
    let (power, rest) ← readPower rest
    let literal : Literal := { negative, whole, fraction, power }
    if literal.isFinite then some (literal.toNumber, rest) else none

/-- How deep containers may be nested. -/
def depthLimit : Nat := 127

mutual

/-- Reads a value with containers nested to `depth`. Every step takes at least one character. -/
def readValue : Nat → Nat → List Char → Option (Json × List Char)
  | 0, _, _ => none
  | fuel + 1, depth, text =>
      match skipGap text with
      | '"' :: rest => (readString [] rest).map fun (s, rest) => (.string s, rest)
      | 'n' :: 'u' :: 'l' :: 'l' :: rest => some (.null, rest)
      | 't' :: 'r' :: 'u' :: 'e' :: rest => some (.bool true, rest)
      | 'f' :: 'a' :: 'l' :: 's' :: 'e' :: rest => some (.bool false, rest)
      | '[' :: rest =>
          if depth = 0 then none
          else
            match skipGap rest with
            | ']' :: rest => some (.array [], rest)
            | rest => readItems fuel (depth - 1) [] rest
      | '\x7b' :: rest =>
          if depth = 0 then none
          else
            match skipGap rest with
            | '\x7d' :: rest => some (.object [], rest)
            | rest => readMembers fuel (depth - 1) [] rest
      | rest => (readNumber rest).map fun (n, rest) => (.number n, rest)

/-- Reads items up to the end of an array, onto those read before, which stand backwards. -/
def readItems : Nat → Nat → List Json → List Char → Option (Json × List Char)
  | 0, _, _, _ => none
  | fuel + 1, depth, done, text =>
      match readValue fuel depth text with
      | none => none
      | some (item, rest) =>
          match skipGap rest with
          | ',' :: rest => readItems fuel depth (item :: done) rest
          | ']' :: rest => some (.array (item :: done).reverse, rest)
          | _ => none

/-- Reads members up to the end of an object, onto those read before, which stand backwards. -/
def readMembers : Nat → Nat → List (String × Json) → List Char → Option (Json × List Char)
  | 0, _, _, _ => none
  | fuel + 1, depth, done, text =>
      match skipGap text with
      | '"' :: rest =>
          match readString [] rest with
          | none => none
          | some (key, rest) =>
              match skipGap rest with
              | ':' :: rest =>
                  match readValue fuel depth rest with
                  | none => none
                  | some (value, rest) =>
                      match skipGap rest with
                      | ',' :: rest => readMembers fuel depth ((key, value) :: done) rest
                      | '\x7d' :: rest => some (.object ((key, value) :: done).reverse, rest)
                      | _ => none
              | _ => none
      | _ => none

end

/-- The value that a text stands for. -/
def read? (text : String) : Option Json :=
  match readValue (text.length + 1) depthLimit text.toList with
  | some (json, rest) => if (skipGap rest).isEmpty then some json else none
  | none => none

end SdkEvidence.Json
