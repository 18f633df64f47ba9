/-!
# Shell scripts

Launchers of external tools are scripts in a small shell language: simple commands with
expansions and redirections, lists, pipes, conditions, loops and functions.
-/
namespace SdkEvidence.Shell

/-- A part of a word. Quoted parts are not split into fields. -/
inductive Part where
  | text (chars : List Char) (quoted : Bool)
  | parameter (name : String) (quoted : Bool)
  | braced (inner : List Char) (quoted : Bool)
  | output (script : List Char) (quoted : Bool)
  | sum (expression : List Char) (quoted : Bool)
  deriving DecidableEq, Repr

/-- The part with quotes around it. -/
def Part.inQuotes : Part → Part
  | .text chars _ => .text chars true
  | .parameter name _ => .parameter (if name = "@" then "*" else name) true
  | .braced inner _ => .braced inner true
  | .output script _ => .output script true
  | .sum expression _ => .sum expression true

/-- A word before it is expanded. -/
abbrev Word := List Part

/-- What a redirection does with a stream. A text that stands in the script itself is an input. -/
inductive Redirection where
  | write (stream : Nat) (target : Word)
  | append (stream : Nat) (target : Word)
  | read (source : Word)
  | here (content : Word)
  | copy (stream source : Nat)
  deriving DecidableEq, Repr

/-- A command. -/
inductive Command where
  | nothing
  | simple (line : Nat) (assignments : List (String × Word)) (words : List Word)
      (redirections : List Redirection)
  | sequence (first second : Command)
  | both (first second : Command)
  | either (first second : Command)
  | negated (body : Command)
  | pipe (first second : Command)
  | conditional (test yes no : Command)
  | loop (untilTrue : Bool) (test body : Command)
  | each (name : String) (words : Option (List Word)) (body : Command)
  | choice (subject : Word) (branches : List (List Word × Command))
  | group (body : Command) (redirections : List Redirection)
  | apart (body : Command)
  | define (name : String) (body : Command)
  deriving Repr

/-- What a script is cut into. -/
inductive Token where
  | word (line : Nat) (parts : Word)
  | operator (text : String)
  | redirect (stream : Nat) (text : String)
  deriving DecidableEq, Repr

end SdkEvidence.Shell
