import SdkEvidence.Json.Value

/-!
# Decoding JSON values

A record is an object, in which unknown members are passed over, or an array with all its fields
in order. Counts are natural numbers of sixty-four bits.
-/
namespace SdkEvidence.Json

/-- The fields of a record by their names; a member that is missing is none. -/
def fields? (json : Json) (names : List String) : Option (List (Option Json)) :=
  match json with
  | .object _ => some (names.map json.member?)
  | .array items => if items.length = names.length then some (items.map some) else none
  | _ => none

/-- The fields of a record that may break off early. -/
def leadingFields? (json : Json) (names : List String) : Option (List (Option Json)) :=
  match json with
  | .object _ => some (names.map json.member?)
  | .array items =>
      if items.length ≤ names.length then
        some (items.map some ++ List.replicate (names.length - items.length) none)
      else none
  | _ => none

/-- Decodes a field that must be there. -/
def required {α : Type} (decode : Json → Option α) (field : Option Json) : Option α :=
  field.bind decode

/-- Decodes a field that may be missing or null. -/
def optional {α : Type} (decode : Json → Option α) : Option Json → Option (Option α)
  | none => some none
  | some .null => some none
  | some json => (decode json).map some

/-- Decodes a field that has a default when it is missing. -/
def withDefault {α : Type} (default : α) (decode : Json → Option α) : Option Json → Option α
  | none => some default
  | some json => decode json

/-- A truth value. -/
def bool? : Json → Option Bool
  | .bool b => some b
  | _ => none

/-- A natural number of sixty-four bits. -/
def count? : Json → Option Nat
  | .number (.natural n) => if n < Nat.pow 2 64 then some n else none
  | _ => none

/-- The items of an array, each decoded. -/
def items? {α : Type} (decode : Json → Option α) : Json → Option (List α)
  | .array items => items.mapM decode
  | _ => none

/-- A list of texts. -/
def strings? (json : Json) : Option (List String) :=
  json.items? string?

/-- A value that may be null. -/
def nullable? {α : Type} (decode : Json → Option α) : Json → Option (Option α)
  | .null => some none
  | json => (decode json).map some

/-- One of a list of named values, by its name, or by an object with its name and null. -/
def choice? {α : Type} (choices : List (String × α)) : Json → Option α
  | .string name => choices.lookup name
  | .object [(name, .null)] => choices.lookup name
  | _ => none

end SdkEvidence.Json
