import SdkEvidence.Shell.Script

/-!
# Cutting scripts into tokens

Words end at blanks and operators. Quotes and expansions are recognised inside words; the script
of a command substitution is kept as text until it is run. An input that is written in the script
is taken out of the lines that follow and stands as a word after its operator.
-/
namespace SdkEvidence.Shell

/-- Whether the character may stand in the name of a variable. -/
def isNameChar (c : Char) : Bool :=
  c.isAlphanum || c == '_'

/-- Whether the character ends a word. -/
def endsWord (c : Char) : Bool :=
  " \t\n;&|<>()".toList.contains c

/-- The text up to the mark that closes `depth` open ones, and what follows it. -/
def untilClosed (opening closing : Char) :
    Nat → List Char → List Char → Option (List Char × List Char)
  | _, _, [] => none
  | depth, done, c :: rest =>
      if c = opening then untilClosed opening closing (depth + 1) (c :: done) rest
      else if c = closing then
        match depth with
        | 0 => some (done.reverse, rest)
        | depth + 1 => untilClosed opening closing depth (c :: done) rest
      else untilClosed opening closing depth (c :: done) rest

/-- The text up to a character, and what follows it. -/
def untilChar (stop : Char) (text : List Char) : Option (List Char × List Char) :=
  let before := text.takeWhile (· != stop)
  match text.drop before.length with
  | _ :: rest => some (before, rest)
  | [] => none

/-- The mark that opens a command substitution in the older form. -/
def backquote : Char := Char.ofNat 96

/-- The script of a command substitution in the older form: a backslash keeps the next character
from closing it. -/
def untilBackquote (quoted : Bool) : List Char → List Char → Option (List Char × List Char)
  | _, [] => none
  | done, '\\' :: c :: rest =>
      if c == backquote || c == '\\' || c == '$' || (quoted && c == '"') then
        untilBackquote quoted (c :: done) rest
      else untilBackquote quoted (c :: '\\' :: done) rest
  | done, c :: rest =>
      if c = backquote then some (done.reverse, rest) else untilBackquote quoted (c :: done) rest

/-- Reads an expansion from after its dollar sign. -/
def readExpansion (quoted : Bool) (text : List Char) : Option (Part × List Char) :=
  match text with
  | '(' :: '(' :: rest =>
      (untilClosed '(' ')' 1 [] rest).map fun (inner, rest) => (.sum inner.dropLast quoted, rest)
  | '(' :: rest =>
      (untilClosed '(' ')' 0 [] rest).map fun (inner, rest) => (.output inner quoted, rest)
  | '\x7b' :: rest =>
      (untilClosed '\x7b' '\x7d' 0 [] rest).map fun (inner, rest) => (.braced inner quoted, rest)
  | c :: rest =>
      if c.isDigit || "@*#?$!-".toList.contains c then
        some (.parameter (String.ofList [c]) quoted, rest)
      else if isNameChar c then
        let name := (c :: rest).takeWhile isNameChar
        some (.parameter (String.ofList name) quoted, (c :: rest).drop name.length)
      else some (.text ['$'] quoted, c :: rest)
  | [] => some (.text ['$'] quoted, [])

/-- Reads text in which only expansions count, onto the parts read before, which stand backwards.
The inside of double quotes ends at a quote; otherwise all of the text is read. -/
def readQuoted (closes : Bool) : Nat → List Part → List Char → Option (List Part × List Char)
  | 0, _, _ => none
  | fuel + 1, done, text =>
      match text with
      | [] => if closes then none else some (done, [])
      | '\\' :: '\n' :: rest => readQuoted closes fuel done rest
      | '\\' :: c :: rest =>
          if "$\\".toList.contains c || c == backquote || (closes && c == '"') then
            readQuoted closes fuel (.text [c] true :: done) rest
          else readQuoted closes fuel (.text ['\\', c] true :: done) rest
      | '$' :: rest =>
          match readExpansion true rest with
          | some (part, rest) => readQuoted closes fuel (part :: done) rest
          | none => none
      | c :: rest =>
          if closes && c == '"' then some (done, rest)
          else if c = backquote then
            match untilBackquote closes [] rest with
            | some (inner, rest) => readQuoted closes fuel (.output inner true :: done) rest
            | none => none
          else readQuoted closes fuel (.text [c] true :: done) rest

/-- Reads a word, onto the parts read before, which stand backwards. -/
def readWord : Nat → List Part → List Char → Option (Word × List Char)
  | 0, _, _ => none
  | fuel + 1, done, text =>
      match text with
      | [] => some (done.reverse, [])
      | '\\' :: '\n' :: rest => readWord fuel done rest
      | '\\' :: c :: rest => readWord fuel (.text [c] true :: done) rest
      | '\'' :: rest =>
          match untilChar '\'' rest with
          | some (inner, rest) => readWord fuel (.text inner true :: done) rest
          | none => none
      | '"' :: rest =>
          match readQuoted true fuel [] rest with
          | some (inner, rest) =>
              readWord fuel ((if inner.isEmpty then [.text [] true] else inner) ++ done) rest
          | none => none
      | '$' :: rest =>
          match readExpansion false rest with
          | some (part, rest) => readWord fuel (part :: done) rest
          | none => none
      | c :: rest =>
          if endsWord c then some (done.reverse, c :: rest)
          else if c = backquote then
            match untilBackquote false [] rest with
            | some (inner, rest) => readWord fuel (.output inner false :: done) rest
            | none => none
          else readWord fuel (.text [c] false :: done) rest

/-- The word that a whole text is. -/
def wordOf? (text : List Char) : Option Word :=
  (readQuoted false (text.length + 1) [] text).map fun (parts, _) => parts.reverse

/-- The word that a whole text is, where quotes and blanks outside of them count as in a word. -/
def wordOfPattern? (text : List Char) : Option Word :=
  match readWord (text.length + 1) [] text with
  | some (word, []) => some word
  | _ => wordOf? text

/-- How many lines end in a text. -/
def countLines (text : List Char) : Nat :=
  text.count '\n'

/-- The characters of a part that is plain text, and whether it is quoted. -/
def Part.plain? : Part → Option (List Char × Bool)
  | .text chars quoted => some (chars, quoted)
  | _ => none

/-- The characters of a word whose parts are all plain text, and whether any is quoted. -/
def plainWord? (word : Word) : Option (List Char × Bool) :=
  (word.mapM Part.plain?).map fun pieces => (pieces.flatMap Prod.fst, pieces.any Prod.snd)

/-- Takes lines up to one that is the end mark. Tabs at the start of lines may be dropped. -/
def takeLines (mark : List Char) (dropTabs : Bool) :
    Nat → List Char → List Char → List Char × List Char
  | 0, done, text => (done, text)
  | fuel + 1, done, text =>
      if text.isEmpty then (done, [])
      else
        let raw := text.takeWhile (· != '\n')
        let line := if dropTabs then raw.dropWhile (· == '\t') else raw
        let rest := text.drop (raw.length + 1)
        if line = mark then (done, rest)
        else takeLines mark dropTabs fuel (done ++ line ++ ['\n']) rest

/-- Reads an input that is written in the script, from after its operator. Gives the input as a
word, how many lines it takes, and the script without it. -/
def readHere (text : List Char) (dropTabs : Bool) : Option (Word × Nat × List Char) := do
  let text := text.dropWhile fun c => c == ' ' || c == '\t'
  let (markWord, after) ← readWord (text.length + 1) [] text
  let (mark, quoted) ← plainWord? markWord
  let sameLine := after.takeWhile (· != '\n')
  let below := after.drop (sameLine.length + 1)
  let (content, rest) := takeLines mark dropTabs (below.length + 1) [] below
  let word ← if quoted then some [.text content true] else wordOf? content
  some (word, countLines below - countLines rest, sameLine ++ '\n' :: rest)

/-- Reads tokens to the end of the script, onto those read before, which stand backwards. `skipped`
is the number of lines that were taken out below the current one. -/
def readTokens : Nat → Nat → Nat → List Token → List Char → Option (List Token)
  | 0, _, _, _, _ => none
  | fuel + 1, line, skipped, done, text =>
      let operator (s : String) (rest : List Char) :=
        readTokens fuel line skipped (.operator s :: done) rest
      let redirect (stream : Nat) (s : String) (rest : List Char) :=
        readTokens fuel line skipped (.redirect stream s :: done) rest
      let here (dropTabs : Bool) (rest : List Char) :=
        match readHere rest dropTabs with
        | some (word, lines, rest) =>
            let done := .word line word :: .redirect 0 "<<" :: done
            readTokens fuel line (skipped + lines) done rest
        | none => none
      match text with
      | [] => some done.reverse
      | ' ' :: rest | '\t' :: rest => readTokens fuel line skipped done rest
      | '\\' :: '\n' :: rest => readTokens fuel (line + 1) skipped done rest
      | '#' :: rest => readTokens fuel line skipped done (rest.dropWhile (· != '\n'))
      | '\n' :: rest => readTokens fuel (line + 1 + skipped) 0 (.operator "\n" :: done) rest
      | ';' :: ';' :: rest => operator ";;" rest
      | ';' :: rest => operator ";" rest
      | '&' :: '&' :: rest => operator "&&" rest
      | '|' :: '|' :: rest => operator "||" rest
      | '(' :: rest => operator "(" rest
      | ')' :: rest => operator ")" rest
      | '|' :: rest => operator "|" rest
      | '>' :: '>' :: rest => redirect 1 ">>" rest
      | '>' :: '&' :: rest => redirect 1 ">&" rest
      | '>' :: rest => redirect 1 ">" rest
      | '<' :: '<' :: '-' :: rest => here true rest
      | '<' :: '<' :: rest => here false rest
      | '<' :: rest => redirect 0 "<" rest
      | '1' :: '>' :: '>' :: rest => redirect 1 ">>" rest
      | '1' :: '>' :: '&' :: rest => redirect 1 ">&" rest
      | '1' :: '>' :: rest => redirect 1 ">" rest
      | '2' :: '>' :: '>' :: rest => redirect 2 ">>" rest
      | '2' :: '>' :: '&' :: rest => redirect 2 ">&" rest
      | '2' :: '>' :: rest => redirect 2 ">" rest
      | rest =>
          match readWord (rest.length + 1) [] rest with
          | some (word, after) =>
              if after.length < rest.length then
                let passed := countLines (rest.take (rest.length - after.length))
                readTokens fuel (line + passed) skipped (.word line word :: done) after
              else none
          | none => none

/-- The tokens of a script whose first line has the given number. -/
def tokens? (line : Nat) (script : List Char) : Option (List Token) :=
  readTokens (script.length + 2) line 0 [] script

end SdkEvidence.Shell
