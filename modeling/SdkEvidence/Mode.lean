import SdkEvidence.Failure
import SdkEvidence.Text.Blank

/-!
# Modes

A run lists everything, or searches for keywords. Keywords are trimmed and requested once each; a
blank one is refused.
-/
namespace SdkEvidence

/-- What a run looks for. -/
inductive Mode where
  | inventory
  | detection (keywords : List String)
  deriving DecidableEq, Repr

namespace Mode

/-- The name of a mode in file names. -/
def tag : Mode → String
  | .inventory => "inventory"
  | .detection _ => "detection"

/-- The requested keywords. -/
def keywords : Mode → List String
  | .inventory => []
  | .detection keywords => keywords

/-- Trims keywords and drops repeated ones, onto those taken before. -/
def takeKeywords (taken : List String) : List String → Except Failure (List String)
  | [] => .ok taken
  | keyword :: rest =>
      let keyword := Text.trimmed keyword
      if keyword = "" then .error (.invalidInput "keyword must not be empty")
      else if taken.contains keyword then takeKeywords taken rest
      else takeKeywords (taken ++ [keyword]) rest

/-- The search for keywords, of which there must be at least one. -/
def detect (keywords : List String) : Except Failure Mode :=
  match takeKeywords [] keywords with
  | .error e => .error e
  | .ok [] => .error (.missingArgument "at least one keyword")
  | .ok taken => .ok (.detection taken)

/-- The search for keywords if there are any, else the inventory. -/
def ofKeywords (keywords : List String) : Except Failure Mode :=
  if keywords.isEmpty then .ok .inventory else detect keywords

end Mode
end SdkEvidence
