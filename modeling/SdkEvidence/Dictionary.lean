/-!
# Dictionaries

A dictionary is a list of keys with values in increasing order of the keys, each key once.
-/
namespace SdkEvidence

/-- Keys with their values. -/
abbrev Dictionary (α : Type) := List (String × α)

namespace Dictionary

/-- Sets the value of a key. -/
def insert {α : Type} (key : String) (value : α) : Dictionary α → Dictionary α
  | [] => [(key, value)]
  | (k, v) :: rest =>
      if key < k then (key, value) :: (k, v) :: rest
      else if key = k then (key, value) :: rest
      else (k, v) :: insert key value rest

/-- Sets the value of a key that has none yet. -/
def insertNew {α : Type} (key : String) (value : α) : Dictionary α → Dictionary α
  | [] => [(key, value)]
  | (k, v) :: rest =>
      if key < k then (key, value) :: (k, v) :: rest
      else if key = k then (k, v) :: rest
      else (k, v) :: insertNew key value rest

/-- Sets the values of keys in order, so that the last one for a key stays. -/
def insertAll {α : Type} (dictionary : Dictionary α) (pairs : List (String × α)) : Dictionary α :=
  pairs.foldl (fun d (key, value) => d.insert key value) dictionary

/-- The value of a key. -/
def get? {α : Type} (dictionary : Dictionary α) (key : String) : Option α :=
  dictionary.lookup key

/-- Takes a key out. -/
def erase {α : Type} (key : String) (dictionary : Dictionary α) : Dictionary α :=
  dictionary.filter fun entry => entry.1 != key

/-- The values of keys in the order asked for. A value is taken out when it is first asked for, and
a key without a value is passed over. -/
def takeAll {α : Type} (dictionary : Dictionary α) : List String → List α
  | [] => []
  | key :: rest =>
      match dictionary.get? key with
      | some value => value :: takeAll (dictionary.erase key) rest
      | none => takeAll dictionary rest

/-- The values in the order of their keys. -/
def values {α : Type} (dictionary : Dictionary α) : List α :=
  dictionary.map Prod.snd

end Dictionary

/-- The distinct texts of a list in increasing order. -/
def sortedDistinct (texts : List String) : List String :=
  (texts.mergeSort fun a b => decide (a ≤ b)).eraseReps

end SdkEvidence
