import SdkEvidence.Text.Lower
import SdkEvidence.Text.Search

/-!
# Keywords

A keyword is searched literally and without regard to case: the lower-case form of the keyword in
the lower-case form of the text.
-/
namespace SdkEvidence

/-- A keyword as requested. -/
structure Keyword where
  text : String
  deriving DecidableEq, Repr

namespace Keyword

/-- What is searched for. -/
def needle (keyword : Keyword) : List Char :=
  Text.lower keyword.text.toList

/-- Whether the keyword stands in a text. -/
def isIn (keyword : Keyword) (haystack : List Char) : Bool :=
  Text.contains keyword.needle (Text.lower haystack)

/-- How often the keyword stands in a text without overlap; an empty one never does. -/
def occurrences (keyword : Keyword) (haystack : List Char) : Nat :=
  Text.occurrences keyword.needle (Text.lower haystack)

end Keyword
end SdkEvidence
