import SdkEvidence.Shell.Grammar
import SdkEvidence.Shell.Machine

/-!
# Expansion of words

A word becomes fields. Values of unquoted expansions are split at blanks; the list of arguments,
when quoted, gives one field for each argument.
-/
namespace SdkEvidence.Shell

/-- The fields made so far, backwards, and the one that is being made. -/
structure Fields where
  done : List (List Char)
  current : Option (List Char)

namespace Fields

/-- No fields. -/
def empty : Fields :=
  { done := [], current := none }

/-- Adds characters to the current field. -/
def join (f : Fields) (chars : List Char) : Fields :=
  { f with current := some (f.current.getD [] ++ chars) }

/-- Ends the current field. -/
def cut (f : Fields) : Fields :=
  match f.current with
  | some chars => { done := chars :: f.done, current := none }
  | none => f

/-- Adds a value that is split at separators. Blank separators make no empty fields. -/
def split (f : Fields) (separators chars : List Char) : Fields :=
  chars.foldl (fun f c =>
    if !separators.contains c then f.join [c]
    else if " \t\n".toList.contains c then f.cut
    else (f.join []).cut) f

/-- Adds a list, each item of which ends a field but the last. -/
def joinList (f : Fields) : List String → Fields
  | [] => f
  | [last] => f.join last.toList
  | item :: rest => (f.join item.toList).cut.joinList rest

/-- Adds a list of values that are split at separators, each of which ends a field but the last. -/
def splitList (f : Fields) (separators : List Char) : List String → Fields
  | [] => f
  | [last] => f.split separators last.toList
  | item :: rest => (f.split separators item.toList).cut.splitList separators rest

/-- The fields. -/
def toList (f : Fields) : List String :=
  f.cut.done.reverse.map String.ofList

end Fields

/-- The value of a parameter, if it is set. -/
def parameter? (m : Machine) (name : String) : Option String :=
  if name = "#" then some (toString m.arguments.length)
  else if name = "?" then some (toString m.status)
  else if name = "$" then some "1"
  else if name = "@" ∨ name = "*" then some (" ".intercalate m.arguments)
  else if name = "-" ∨ name = "!" then some ""
  else
    match name.toNat? with
    | some 0 => some m.name
    | some (n + 1) => m.arguments[n]?
    | none => m.bindings.lookup name

/-- Cuts the inside of braces into the name of a parameter and what is done with its value. -/
def bracedName (text : List Char) : List Char × List Char :=
  match text with
  | c :: rest =>
      if isNameChar c then
        let name := (c :: rest).takeWhile isNameChar
        (name, (c :: rest).drop name.length)
      else if "@*#?$!-".toList.contains c then ([c], rest)
      else ([], c :: rest)
  | [] => ([], [])

/-- The text without the line ends at its end. -/
def dropFinalLines (chars : List Char) : List Char :=
  (chars.reverse.dropWhile (· == '\n')).reverse

/-- The tokens of an arithmetic expression: numbers and operators. -/
inductive SumToken where
  | number (n : Int)
  | mark (text : String)
  deriving DecidableEq, Repr

/-- Cuts an arithmetic expression into tokens. -/
def sumTokens (m : Machine) : Nat → List Char → List SumToken
  | 0, _ => []
  | fuel + 1, text =>
      match text with
      | [] => []
      | ' ' :: rest | '\t' :: rest | '\n' :: rest => sumTokens m fuel rest
      | c :: rest =>
          if c.isDigit then
            let digits := (c :: rest).takeWhile Char.isDigit
            let value : Int := ((String.ofList digits).toNat?).getD 0
            .number value :: sumTokens m fuel ((c :: rest).drop digits.length)
          else if isNameChar c then
            let name := (c :: rest).takeWhile isNameChar
            let value := ((m.valueOf (String.ofList name)).toInt?).getD 0
            .number value :: sumTokens m fuel ((c :: rest).drop name.length)
          else .mark (String.ofList [c]) :: sumTokens m fuel rest

mutual

/-- The value of an expression with sums and differences. -/
def sumValue : Nat → List SumToken → Option (Int × List SumToken)
  | 0, _ => none
  | fuel + 1, tokens => do
      let (first, rest) ← productValue fuel tokens
      sumOn fuel first rest

/-- Goes on with sums and differences. -/
def sumOn : Nat → Int → List SumToken → Option (Int × List SumToken)
  | 0, _, _ => none
  | fuel + 1, total, tokens =>
      match tokens with
      | .mark "+" :: rest => do
          let (next, rest) ← productValue fuel rest
          sumOn fuel (total + next) rest
      | .mark "-" :: rest => do
          let (next, rest) ← productValue fuel rest
          sumOn fuel (total - next) rest
      | rest => some (total, rest)

/-- The value of an expression with products and quotients. -/
def productValue : Nat → List SumToken → Option (Int × List SumToken)
  | 0, _ => none
  | fuel + 1, tokens => do
      let (first, rest) ← factorValue fuel tokens
      productOn fuel first rest

/-- Goes on with products and quotients. -/
def productOn : Nat → Int → List SumToken → Option (Int × List SumToken)
  | 0, _, _ => none
  | fuel + 1, total, tokens =>
      match tokens with
      | .mark "*" :: rest => do
          let (next, rest) ← factorValue fuel rest
          productOn fuel (total * next) rest
      | .mark "/" :: rest => do
          let (next, rest) ← factorValue fuel rest
          if next = 0 then none else productOn fuel (Int.tdiv total next) rest
      | .mark "%" :: rest => do
          let (next, rest) ← factorValue fuel rest
          if next = 0 then none else productOn fuel (Int.tmod total next) rest
      | rest => some (total, rest)

/-- The value of a number, a sign with its operand, or an expression in parentheses. -/
def factorValue : Nat → List SumToken → Option (Int × List SumToken)
  | 0, _ => none
  | fuel + 1, tokens =>
      match tokens with
      | .number n :: rest => some (n, rest)
      | .mark "-" :: rest => (factorValue fuel rest).map fun (n, rest) => (-n, rest)
      | .mark "+" :: rest => factorValue fuel rest
      | .mark "(" :: rest => do
          let (n, rest) ← sumValue fuel rest
          match rest with
          | .mark ")" :: rest => some (n, rest)
          | _ => none
      | _ => none

end

/-- The value of an arithmetic expression; none if it cannot be read or divides by zero. -/
def arithmetic (m : Machine) (text : List Char) : Option Int :=
  let tokens := sumTokens m (text.length + 1) text
  match sumValue (4 * tokens.length + 8) tokens with
  | some (n, []) => some n
  | _ => none

end SdkEvidence.Shell
