import SdkEvidence.Shell.Machine

/-!
# Printing

The commands that print their arguments, with the escapes and directives that they know.
-/
namespace SdkEvidence.Shell

/-- The integer that a text is: digits after at most one sign. -/
def integer? (text : String) : Option Int :=
  let digits? (chars : List Char) : Option Nat :=
    if chars.isEmpty || !chars.all Char.isDigit then none
    else some (chars.foldl (fun n c => 10 * n + (c.toNat - 48)) 0)
  match text.toList with
  | '-' :: rest => (digits? rest).map fun n => -Int.ofNat n
  | '+' :: rest => (digits? rest).map Int.ofNat
  | rest => (digits? rest).map Int.ofNat

/-- The number that a text of digits is. -/
def natural? (text : String) : Option Nat :=
  if text.toList.head?.any Char.isDigit then (integer? text).map Int.toNat else none

/-- The byte of up to three octal digits, and what follows them. -/
def octal (digits : Nat) (text : List Char) : Option (UInt8 × List Char) :=
  let ds := (text.take digits).takeWhile fun c => '0' ≤ c && c ≤ '7'
  if ds.isEmpty then none
  else some (UInt8.ofNat (ds.foldl (fun n c => n * 8 + (c.toNat - 48)) 0), text.drop ds.length)

/-- The byte of an escape by one letter. -/
def letterByte? : Char → Option UInt8
  | 'a' => some 7
  | 'b' => some 8
  | 'f' => some 12
  | 'n' => some 10
  | 'r' => some 13
  | 't' => some 9
  | 'v' => some 11
  | '\\' => some 92
  | _ => none

/-- A text with its escapes replaced. The flag tells whether octal numbers need a zero in front.
Also tells whether the text was cut short by the escape that ends all output. -/
def unescape (needsZero : Bool) : Nat → ByteArray → List Char → ByteArray × Bool
  | 0, done, _ => (done, false)
  | fuel + 1, done, text =>
      match text with
      | [] => (done, false)
      | '\\' :: c :: rest =>
          match letterByte? c with
          | some b => unescape needsZero fuel (done.push b) rest
          | none =>
              if c = 'c' then (done, true)
              else
                let number := if needsZero then (if c = '0' then octal 3 rest else none)
                  else octal 3 (c :: rest)
                match number with
                | some (b, rest) => unescape needsZero fuel (done.push b) rest
                | none =>
                    let shown := if needsZero && c == '0' then [0].toByteArray
                      else Utf8.encode (String.ofList ['\\', c])
                    unescape needsZero fuel (done ++ shown) rest
      | c :: rest => unescape needsZero fuel (done ++ Utf8.encode (String.ofList [c])) rest

/-- Prints arguments with blanks between them, and a line end unless it is unwanted. -/
def echo (m : Machine) (arguments : List String) : Machine :=
  let (bare, words) := match arguments with
    | "-n" :: rest => (true, rest)
    | rest => (false, rest)
  let text := (" ".intercalate words).toList
  let (content, cut) := unescape true (text.length + 1) ByteArray.empty text
  (m.print (if bare || cut then content else content.push 10)).withStatus 0

/-- A directive of a format: how wide a value is shown, and how. -/
structure Directive where
  flags : List Char
  width : Nat
  precision : Option Nat
  conversion : Char

namespace Directive

/-- The number at the start of a text, and what follows it. -/
def number (text : List Char) : Nat × List Char :=
  let digits := text.takeWhile Char.isDigit
  (digits.foldl (fun n c => 10 * n + (c.toNat - 48)) 0, text.drop digits.length)

/-- Reads a directive from after its percent sign. -/
def read? (text : List Char) : Option (Directive × List Char) :=
  let flags := text.takeWhile fun c => "-+ 0#".toList.contains c
  let (width, rest) := number (text.drop flags.length)
  let (precision, rest) := match rest with
    | '.' :: rest =>
        let (n, rest) := number rest
        (some n, rest)
    | rest => (none, rest)
  match rest with
  | conversion :: rest => some ({ flags, width, precision, conversion }, rest)
  | [] => none

/-- A value made as wide as wanted: with blanks or zeros in front, or blanks behind. -/
def pad (d : Directive) (isNumber : Bool) (chars : List Char) : List Char :=
  let missing := d.width - chars.length
  if d.flags.contains '-' then chars ++ List.replicate missing ' '
  else if d.flags.contains '0' && isNumber then
    match chars with
    | '-' :: digits => '-' :: (List.replicate missing '0' ++ digits)
    | digits => List.replicate missing '0' ++ digits
  else List.replicate missing ' ' ++ chars

/-- The digits of a number in a base. -/
def digits (base : Nat) (n : Int) : List Char :=
  Nat.toDigits base n.toNat

/-- A value as a directive shows it. -/
def apply (d : Directive) (value : String) : ByteArray :=
  let n := (integer? value).getD 0
  let shown (isNumber : Bool) (chars : List Char) :=
    Utf8.encode (String.ofList (d.pad isNumber chars))
  match d.conversion with
  | 'b' => (unescape true (value.length + 1) ByteArray.empty value.toList).1
  | 'd' | 'i' | 'u' => shown true (toString n).toList
  | 'x' => shown true (digits 16 n)
  | 'X' => shown true ((digits 16 n).map Char.toUpper)
  | 'o' => shown true (digits 8 n)
  | 'c' => shown false (value.toList.take 1)
  | _ =>
      shown false (match d.precision with
        | some n => value.toList.take n
        | none => value.toList)

end Directive

/-- Prints a format once. Gives the arguments that are left. -/
def formatOnce : Nat → ByteArray → List Char → List String → ByteArray × List String
  | 0, done, _, arguments => (done, arguments)
  | fuel + 1, done, text, arguments =>
      match text with
      | [] => (done, arguments)
      | '%' :: '%' :: rest => formatOnce fuel (done.push 37) rest arguments
      | '%' :: rest =>
          match Directive.read? rest with
          | some (d, rest) =>
              formatOnce fuel (done ++ d.apply (arguments.head?.getD "")) rest (arguments.drop 1)
          | none => (done.push 37, arguments)
      | '\\' :: c :: rest =>
          match letterByte? c, octal 3 (c :: rest) with
          | some b, _ => formatOnce fuel (done.push b) rest arguments
          | none, some (b, rest) => formatOnce fuel (done.push b) rest arguments
          | none, none =>
              let shown := if c = '"' ∨ c = '\'' then [c] else ['\\', c]
              formatOnce fuel (done ++ Utf8.encode (String.ofList shown)) rest arguments
      | c :: rest => formatOnce fuel (done ++ Utf8.encode (String.ofList [c])) rest arguments

/-- Prints a format as often as the arguments need. -/
def formatAll (format : List Char) : Nat → ByteArray → List String → ByteArray
  | 0, done, _ => done
  | fuel + 1, done, arguments =>
      let (done, rest) := formatOnce (format.length + 1) done format arguments
      if rest.isEmpty || rest.length == arguments.length then done
      else formatAll format fuel done rest

/-- Prints arguments by a format. -/
def printf (m : Machine) (arguments : List String) : Machine :=
  match arguments with
  | [] => (m.complainHere "printf: usage: printf format [arg ...]").withStatus 2
  | format :: values =>
      (m.print (formatAll format.toList (values.length + 1) ByteArray.empty values)).withStatus 0

/-- Prints the integers from a first to a last one, a line to each. -/
def printSequence (m : Machine) (arguments : List String) : Machine :=
  let count (first step last : Int) : Nat :=
    if step = 0 then 0 else (Int.fdiv (last - first) step + 1).toNat
  let print (first step last : Int) : Machine :=
    ((List.range (count first step last)).foldl
      (fun m i => m.printLine (toString (first + step * Int.ofNat i))) m).withStatus 0
  match arguments.mapM integer? with
  | some [last] => print 1 1 last
  | some [first, last] => print first 1 last
  | some [first, step, last] => print first step last
  | _ => (m.complain "seq: invalid argument").withStatus 1

/-- Prints the result of one operation on two integers. A result of zero counts as a failure. -/
def evaluate (m : Machine) (arguments : List String) : Machine :=
  let result : Option Int := match arguments with
    | [a] => integer? a
    | [a, operator, b] => do
        let a ← integer? a
        let b ← integer? b
        match operator with
        | "+" => some (a + b)
        | "-" => some (a - b)
        | "*" => some (a * b)
        | "/" => if b = 0 then none else some (Int.tdiv a b)
        | "%" => if b = 0 then none else some (Int.tmod a b)
        | _ => none
    | _ => none
  match result with
  | some n => (m.printLine (toString n)).withStatus (if n = 0 then 1 else 0)
  | none => (m.complain "expr: syntax error").withStatus 2

end SdkEvidence.Shell
