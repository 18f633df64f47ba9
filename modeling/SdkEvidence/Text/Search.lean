/-!
# Literal search

Whether one text stands in another, and how often without overlap, taking each occurrence as
early as possible.
-/
namespace SdkEvidence.Text

/-- Whether `needle` stands somewhere in the text. -/
def contains (needle : List Char) : List Char → Bool
  | [] => needle.isEmpty
  | c :: rest => needle.isPrefixOf (c :: rest) || contains needle rest

/-- Counts on from `found`: after an occurrence, `skip` characters belong to it. -/
def countFrom (needle : List Char) (skip found : Nat) : List Char → Nat
  | [] => found
  | c :: rest =>
      match skip with
      | skip + 1 => countFrom needle skip found rest
      | 0 =>
          if needle.isPrefixOf (c :: rest) then
            countFrom needle (needle.length - 1) (found + 1) rest
          else countFrom needle 0 found rest

/-- How often a needle stands in the text without overlap; an empty needle never does. -/
def occurrences (needle text : List Char) : Nat :=
  if needle.isEmpty then 0 else countFrom needle 0 0 text

/-- What follows the first occurrence of `needle`, if there is one. -/
def after? (needle : List Char) : List Char → Option (List Char)
  | [] => if needle.isEmpty then some [] else none
  | c :: rest =>
      if needle.isPrefixOf (c :: rest) then some ((c :: rest).drop needle.length)
      else after? needle rest

/-- The text without `lead` at its start, if it starts with it. -/
def dropLead? (lead text : List Char) : Option (List Char) :=
  if lead.isPrefixOf text then some (text.drop lead.length) else none

/-- Whether the text ends with `tail`. -/
def endsWith (tail text : List Char) : Bool :=
  tail.isSuffixOf text

/-- Pieces joined by a separator. -/
def joined (separator : String) (pieces : List String) : String :=
  separator.intercalate pieces

end SdkEvidence.Text
