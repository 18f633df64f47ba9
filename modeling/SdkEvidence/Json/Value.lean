/-!
# JSON values

Numbers that are plain natural numbers keep their value; any other number keeps its text. The
members of an object keep their order.
-/
namespace SdkEvidence

/-- A number of a JSON text. -/
inductive JsonNumber where
  | natural (n : Nat)
  | other (text : String)
  deriving DecidableEq, Repr

/-- A JSON value. -/
inductive Json where
  | null
  | bool (b : Bool)
  | number (n : JsonNumber)
  | string (s : String)
  | array (items : List Json)
  | object (members : List (String × Json))
  deriving Repr, Inhabited

namespace Json

/-- A natural number as a value. -/
def nat (n : Nat) : Json :=
  .number (.natural n)

/-- A value that may be missing. -/
def option {α : Type} (encode : α → Json) : Option α → Json
  | none => .null
  | some a => encode a

/-- A list of values. -/
def list {α : Type} (encode : α → Json) (items : List α) : Json :=
  .array (items.map encode)

/-- A list of texts. -/
def strings (items : List String) : Json :=
  list .string items

/-- The value of a member; where a key is repeated, the last one counts. -/
def member? (json : Json) (key : String) : Option Json :=
  match json with
  | .object members => (members.reverse.find? fun m => m.1 == key).map Prod.snd
  | _ => none

/-- The text of a string value. -/
def string? : Json → Option String
  | .string s => some s
  | _ => none

end Json
end SdkEvidence
