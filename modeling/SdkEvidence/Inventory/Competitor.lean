import SdkEvidence.Inventory.NativeLibrary
import SdkEvidence.Text.Blank
import SdkEvidence.Text.Fold
import SdkEvidence.Text.Line
import SdkEvidence.Text.Search

/-!
# Competitors

A list of names is compared with native libraries. The words of a name must stand in the name or
the path of a library, one after another on one line, with anything between them and in any case.
The first name that does so is the competitor of the library.
-/
namespace SdkEvidence

/-- The names of competitors, in order. -/
structure CompetitorList where
  names : List String
  deriving DecidableEq, Repr

/-- A library that resembles a competitor's. -/
structure CompetitorMatch where
  libraryName : String
  libraryPath : String
  librarySize : Nat
  competitor : String
  deriving DecidableEq, Repr

namespace CompetitorList

/-- No names. -/
def empty : CompetitorList :=
  { names := [] }

/-- Drops annotations in square brackets, where `skip` characters belong to the last one. -/
def dropAnnotations (skip : Nat) : List Char → List Char
  | [] => []
  | c :: rest =>
      match skip with
      | skip + 1 => dropAnnotations skip rest
      | 0 =>
          if c = '[' then
            let note := rest.takeWhile (· != ']')
            if note.length < rest.length then dropAnnotations (note.length + 1) rest
            else c :: dropAnnotations 0 rest
          else c :: dropAnnotations 0 rest

/-- The name on a line, if there is one. -/
def name? (line : List Char) : Option String :=
  let line := Text.trim line
  if line.isEmpty ∨ line.head? = some '#' then none
  else
    let name := Text.trim (dropAnnotations 0 line)
    if name.isEmpty then none else some (String.ofList name)

/-- The list of a text, one name to a line. -/
def read (text : String) : CompetitorList :=
  { names := (Text.lines text.toList).filterMap name? }

/-- What follows the first occurrence of a folded text. -/
def afterFolded? (needle : List Nat) : List Nat → Option (List Nat)
  | [] => if needle.isEmpty then some [] else none
  | n :: rest =>
      if needle.isPrefixOf (n :: rest) then some ((n :: rest).drop needle.length)
      else afterFolded? needle rest

/-- Whether words stand in a line one after another, each as early as possible. -/
def wordsIn : List (List Nat) → List Nat → Bool
  | [], _ => true
  | word :: more, line =>
      match afterFolded? word line with
      | some rest => wordsIn more rest
      | none => false

/-- The words of a name, folded. -/
def wordsOf (name : String) : List (List Nat) :=
  (Text.words name.toList).map Text.folded

/-- Whether words stand on one line of a text. -/
def isIn (words : List (List Nat)) (text : String) : Bool :=
  (text.toList.splitOn '\n').any fun line => wordsIn words (Text.folded line)

/-- The names that have words. -/
def searchable (list : CompetitorList) : List String :=
  list.names.filter fun name => !(wordsOf name).isEmpty

/-- Whether there is nothing to compare with. -/
def isEmpty (list : CompetitorList) : Bool :=
  list.searchable.isEmpty

/-- The first name that a library resembles. -/
def resembled? (list : CompetitorList) (library : NativeLibrary) : Option String :=
  list.searchable.find? fun name =>
    isIn (wordsOf name) library.name || isIn (wordsOf name) library.path

/-- The match of a library, if it resembles a competitor's. -/
def matchOf? (list : CompetitorList) (library : NativeLibrary) : Option CompetitorMatch :=
  (list.resembled? library).map fun competitor =>
    { libraryName := library.name, libraryPath := library.path, librarySize := library.size
      competitor }

/-- The matches of libraries, in their order. -/
def matchesAmong (list : CompetitorList) (libraries : List NativeLibrary) : List CompetitorMatch :=
  libraries.filterMap list.matchOf?

end CompetitorList
end SdkEvidence
