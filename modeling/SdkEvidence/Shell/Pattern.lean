/-!
# Patterns

A pattern matches a text as a whole. Two wildcards stand for one and for any characters, brackets
for one character of a set; a backslash takes the special meaning from the next character.
-/
namespace SdkEvidence.Shell

/-- What a pattern is made of. -/
inductive PatternItem where
  | char (c : Char)
  | one
  | many
  | set (negated : Bool) (ranges : List (Char × Char))
  deriving DecidableEq, Repr

namespace PatternItem

/-- Whether an item other than the wildcard for many matches a character. -/
def accepts (c : Char) : PatternItem → Bool
  | .char d => c == d
  | .one => true
  | .many => false
  | .set negated ranges => (ranges.any fun (low, high) => low ≤ c && c ≤ high) != negated

/-- Reads the characters and ranges of a set up to its end. The first character is never the
end. -/
def readRanges : Bool → List Char → Option (List (Char × Char) × List Char)
  | false, ']' :: rest => some ([], rest)
  | _, low :: '-' :: high :: rest =>
      if high = ']' then
        (readRanges false ('-' :: high :: rest)).map fun (more, rest) => ((low, low) :: more, rest)
      else (readRanges false rest).map fun (more, rest) => ((low, high) :: more, rest)
  | _, c :: rest => (readRanges false rest).map fun (more, rest) => ((c, c) :: more, rest)
  | _, [] => none
termination_by _ text => text.length

/-- Reads a set from after its bracket. -/
def readSet (text : List Char) : Option (PatternItem × List Char) :=
  match text with
  | '!' :: rest => (readRanges true rest).map fun (ranges, rest) => (.set true ranges, rest)
  | rest => (readRanges true rest).map fun (ranges, rest) => (.set false ranges, rest)

/-- The items of a pattern. -/
def ofText : Nat → List Char → List PatternItem
  | 0, _ => []
  | fuel + 1, text =>
      match text with
      | [] => []
      | '\\' :: c :: rest => .char c :: ofText fuel rest
      | '*' :: rest => .many :: ofText fuel rest
      | '?' :: rest => .one :: ofText fuel rest
      | '[' :: rest =>
          match readSet rest with
          | some (item, rest) => item :: ofText fuel rest
          | none => .char '[' :: ofText fuel rest
      | c :: rest => .char c :: ofText fuel rest

/-- Whether the items match a text from its start to its end. -/
def matchesAll : List PatternItem → List Char → Bool
  | [], text => text.isEmpty
  | .many :: items, [] => matchesAll items []
  | .many :: items, c :: text => matchesAll items (c :: text) || matchesAll (.many :: items) text
  | _ :: _, [] => false
  | item :: items, c :: text => item.accepts c && matchesAll items text

end PatternItem

/-- Whether a pattern matches a text. -/
def matchesPattern (pattern text : List Char) : Bool :=
  PatternItem.matchesAll (PatternItem.ofText (pattern.length + 1) pattern) text

/-- The characters with a backslash before those that have a meaning in patterns. -/
def escapePattern (chars : List Char) : List Char :=
  chars.flatMap fun c => if "*?[]\\!-".toList.contains c then ['\\', c] else [c]

/-- Drops the part at the start of a text that a pattern matches: the longest one or the
shortest. -/
def trimStart (longest : Bool) (pattern text : List Char) : List Char :=
  let lengths := List.range (text.length + 1)
  match (if longest then lengths.reverse else lengths).find? fun n =>
      matchesPattern pattern (text.take n) with
  | some n => text.drop n
  | none => text

/-- Drops the part at the end of a text that a pattern matches: the longest one or the
shortest. -/
def trimEnd (longest : Bool) (pattern text : List Char) : List Char :=
  let lengths := List.range (text.length + 1)
  match (if longest then lengths else lengths.reverse).find? fun n =>
      matchesPattern pattern (text.drop n) with
  | some n => text.take n
  | none => text

end SdkEvidence.Shell
