import SdkEvidence.Shell.Token

/-!
# Reading commands

The grammar of commands over tokens. Words with a special meaning have it only where a command may
start.
-/
namespace SdkEvidence.Shell

/-- The text of a word that has no quotes and no expansions. -/
def literal? (word : Word) : Option String :=
  let chars := word.mapM fun part =>
    match part with
    | .text chars false => some chars
    | _ => none
  chars.map fun pieces => String.ofList pieces.flatten

/-- Words that end a list of commands or stand inside a compound command. -/
def closers : List String :=
  ["then", "else", "elif", "fi", "do", "done", "esac", "\x7d"]

/-- Drops line ends, and semicolons where they are allowed. -/
def skipEnds (tokens : List Token) : List Token :=
  tokens.dropWhile fun t => t == .operator "\n" || t == .operator ";"

/-- Drops line ends. -/
def skipLines (tokens : List Token) : List Token :=
  tokens.dropWhile fun t => t == .operator "\n"

/-- Drops a special word that must stand next. -/
def dropWord (text : String) (tokens : List Token) : Option (List Token) :=
  match tokens with
  | .word _ parts :: rest => if literal? parts = some text then some rest else none
  | _ => none

/-- The assignment that a word is: a name, an equals sign and a value. -/
def assignment? (word : Word) : Option (String × Word) :=
  let lead := word.takeWhile fun part => part matches .text [_] false
  let chars := lead.flatMap fun part =>
    match part with
    | .text cs _ => cs
    | _ => []
  let name := chars.takeWhile isNameChar
  match chars.drop name.length with
  | '=' :: _ =>
      if name.isEmpty || (name.head?.any Char.isDigit) then none
      else some (String.ofList name, word.drop (name.length + 1))
  | _ => none

/-- Reads the target of a redirection. -/
def readRedirection (stream : Nat) (text : String) (tokens : List Token) :
    Option (Redirection × List Token) :=
  match tokens with
  | .word _ target :: rest =>
      if text = ">" then some (.write stream target, rest)
      else if text = ">>" then some (.append stream target, rest)
      else if text = "<" then some (.read target, rest)
      else if text = "<<" then some (.here target, rest)
      else
        match (literal? target).bind String.toNat? with
        | some source => some (.copy stream source, rest)
        | none => none
  | _ => none

/-- Reads redirections. -/
def readRedirections : Nat → List Token → Option (List Redirection × List Token)
  | 0, _ => none
  | fuel + 1, tokens =>
      match tokens with
      | .redirect stream text :: rest => do
          let (first, rest) ← readRedirection stream text rest
          let (more, rest) ← readRedirections fuel rest
          some (first :: more, rest)
      | rest => some ([], rest)

/-- Reads a simple command on. -/
def readSimple : Nat → Nat → List (String × Word) → List Word → List Redirection → List Token →
    Option (Command × List Token)
  | 0, _, _, _, _, _ => none
  | fuel + 1, line, assignments, words, redirections, tokens =>
      match tokens with
      | .redirect stream text :: rest => do
          let (redirection, rest) ← readRedirection stream text rest
          readSimple fuel line assignments words (redirections ++ [redirection]) rest
      | .word here word :: rest =>
          let line := if words.isEmpty && assignments.isEmpty then here else line
          match (if words.isEmpty then assignment? word else none) with
          | some a => readSimple fuel line (assignments ++ [a]) words redirections rest
          | none => readSimple fuel line assignments (words ++ [word]) redirections rest
      | rest => some (.simple line assignments words redirections, rest)

/-- Reads words up to the end of a list. -/
def readWords : List Token → List Word × List Token
  | .word _ word :: rest =>
      let (more, rest) := readWords rest
      (word :: more, rest)
  | rest => ([], rest)

/-- Reads the patterns of a branch up to the closing parenthesis. -/
def readPatterns : Nat → List Token → Option (List Word × List Token)
  | 0, _ => none
  | fuel + 1, tokens =>
      match tokens with
      | .operator "(" :: rest => readPatterns fuel rest
      | .word _ word :: .operator "|" :: rest =>
          (readPatterns fuel rest).map fun (more, rest) => (word :: more, rest)
      | .word _ word :: .operator ")" :: rest => some ([word], rest)
      | _ => none

mutual

/-- Reads a list of commands up to a word or mark that closes it. -/
def readList : Nat → List Token → Option (Command × List Token)
  | 0, _ => none
  | fuel + 1, tokens =>
      let tokens := skipEnds tokens
      let closed := match tokens with
        | [] => true
        | .operator text :: _ => text == ")" || text == ";;"
        | .word _ parts :: _ => (literal? parts).any closers.contains
        | _ => false
      if closed then some (.nothing, tokens)
      else do
        let (first, rest) ← readChain fuel tokens
        match rest with
        | .operator "\n" :: _ | .operator ";" :: _ =>
            let (more, rest) ← readList fuel rest
            some (.sequence first more, rest)
        | rest => some (first, rest)

/-- Reads commands joined by conditions. -/
def readChain : Nat → List Token → Option (Command × List Token)
  | 0, _ => none
  | fuel + 1, tokens => do
      let (first, rest) ← readNegated fuel tokens
      readChainOn fuel first rest

/-- Reads on after a command of a chain. -/
def readChainOn : Nat → Command → List Token → Option (Command × List Token)
  | 0, _, _ => none
  | fuel + 1, done, tokens =>
      match tokens with
      | .operator "&&" :: rest => do
          let (next, rest) ← readNegated fuel (skipLines rest)
          readChainOn fuel (.both done next) rest
      | .operator "||" :: rest => do
          let (next, rest) ← readNegated fuel (skipLines rest)
          readChainOn fuel (.either done next) rest
      | rest => some (done, rest)

/-- Reads commands joined by pipes, which may be negated as a whole. -/
def readNegated : Nat → List Token → Option (Command × List Token)
  | 0, _ => none
  | fuel + 1, tokens =>
      match dropWord "!" tokens with
      | some rest => (readNegated fuel rest).map fun (body, rest) => (.negated body, rest)
      | none => do
          let (first, rest) ← readCommand fuel tokens
          readPipe fuel first rest

/-- Reads on after a command of a pipe. -/
def readPipe : Nat → Command → List Token → Option (Command × List Token)
  | 0, _, _ => none
  | fuel + 1, done, tokens =>
      match tokens with
      | .operator "|" :: rest => do
          let (next, rest) ← readCommand fuel (skipLines rest)
          readPipe fuel (.pipe done next) rest
      | rest => some (done, rest)

/-- Reads a command. -/
def readCommand : Nat → List Token → Option (Command × List Token)
  | 0, _ => none
  | fuel + 1, tokens =>
      let redirected (body : Command) (rest : List Token) : Option (Command × List Token) := do
        let (redirections, rest) ← readRedirections (rest.length + 1) rest
        some (if redirections.isEmpty then body else .group body redirections, rest)
      match tokens with
      | .operator "(" :: rest => do
          let (body, rest) ← readList fuel rest
          match rest with
          | .operator ")" :: rest => redirected (.apart body) rest
          | _ => none
      | .redirect _ _ :: _ => readSimple (tokens.length + 1) 1 [] [] [] tokens
      | .word _ parts :: .operator "(" :: .operator ")" :: rest => do
          let name ← literal? parts
          let (body, rest) ← readCommand fuel (skipLines rest)
          some (.define name body, rest)
      | .word line parts :: rest =>
          match literal? parts with
          | some "if" => do
              let (body, rest) ← readConditional fuel rest
              redirected body rest
          | some "while" => do
              let (body, rest) ← readLoop fuel false rest
              redirected body rest
          | some "until" => do
              let (body, rest) ← readLoop fuel true rest
              redirected body rest
          | some "for" => do
              let (body, rest) ← readEach fuel rest
              redirected body rest
          | some "case" => do
              let (body, rest) ← readChoice fuel rest
              redirected body rest
          | some "\x7b" => do
              let (body, rest) ← readList fuel rest
              redirected body (← dropWord "\x7d" rest)
          | _ => readSimple (tokens.length + 1) line [] [] [] tokens
      | _ => none

/-- Reads a condition from after its first word. -/
def readConditional : Nat → List Token → Option (Command × List Token)
  | 0, _ => none
  | fuel + 1, tokens => do
      let (test, rest) ← readList fuel tokens
      let (yes, rest) ← readList fuel (← dropWord "then" rest)
      match dropWord "elif" rest with
      | some rest =>
          let (no, rest) ← readConditional fuel rest
          some (.conditional test yes no, rest)
      | none =>
          match dropWord "else" rest with
          | some rest =>
              let (no, rest) ← readList fuel rest
              some (.conditional test yes no, ← dropWord "fi" rest)
          | none => some (.conditional test yes .nothing, ← dropWord "fi" rest)

/-- Reads a loop from after its first word. -/
def readLoop : Nat → Bool → List Token → Option (Command × List Token)
  | 0, _, _ => none
  | fuel + 1, untilTrue, tokens => do
      let (test, rest) ← readList fuel tokens
      let (body, rest) ← readList fuel (← dropWord "do" rest)
      some (.loop untilTrue test body, ← dropWord "done" rest)

/-- Reads a loop over words from after its first word. -/
def readEach : Nat → List Token → Option (Command × List Token)
  | 0, _ => none
  | fuel + 1, tokens => do
      match tokens with
      | .word _ name :: rest =>
          let name ← literal? name
          let (words, rest) :=
            match dropWord "in" (skipLines rest) with
            | some rest =>
                let (words, rest) := readWords rest
                (some words, rest)
            | none => (none, rest)
          let (body, rest) ← readList fuel (← dropWord "do" (skipEnds rest))
          some (.each name words body, ← dropWord "done" rest)
      | _ => none

/-- Reads a choice from after its first word. -/
def readChoice : Nat → List Token → Option (Command × List Token)
  | 0, _ => none
  | fuel + 1, tokens => do
      match tokens with
      | .word _ subject :: rest =>
          let rest ← dropWord "in" (skipLines rest)
          let (branches, rest) ← readBranches fuel rest
          some (.choice subject branches, rest)
      | _ => none

/-- Reads the branches of a choice and its end. -/
def readBranches : Nat → List Token → Option (List (List Word × Command) × List Token)
  | 0, _ => none
  | fuel + 1, tokens => do
      let tokens := skipLines tokens
      match dropWord "esac" tokens with
      | some rest => some ([], rest)
      | none =>
          let (patterns, rest) ← readPatterns (tokens.length + 1) tokens
          let (body, rest) ← readList fuel rest
          match rest with
          | .operator ";;" :: rest =>
              let (more, rest) ← readBranches fuel rest
              some ((patterns, body) :: more, rest)
          | rest => some ([(patterns, body)], ← dropWord "esac" rest)

end

/-- The command that a script is, whose first line has the given number. -/
def read? (line : Nat) (script : List Char) : Option Command := do
  let tokens ← tokens? line script
  let (command, rest) ← readList (8 * tokens.length + 8) tokens
  if (skipEnds rest).isEmpty then some command else none

end SdkEvidence.Shell
