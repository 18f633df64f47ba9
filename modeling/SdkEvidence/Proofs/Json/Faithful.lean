import Mathlib.Data.List.Nodup
import SdkEvidence.Json.Decode
import SdkEvidence.Proofs.Json.RoundTrip

/-!
# Encoders and decoders that agree

A value is kept by an encoder and a decoder if it is encoded as JSON that can be written, from which
the decoder gets it back (`Faithful`). What keeps the parts keeps lists of them and parts that may
be missing, and the fields of a record are found under their names (`fields?_object`).
-/
namespace SdkEvidence.Json

/-- A value that is encoded as JSON of some depth and decoded from it again. -/
structure Faithful {α : Type} (depth : Nat) (encode : α → Json) (decode : Json → Option α) (a : α) :
    Prop where
  written : Written depth (encode a)
  decoded : decode (encode a) = some a

/-- A field that must be there is decoded from its value. -/
theorem Faithful.required {α : Type} {depth : Nat} {encode : α → Json} {decode : Json → Option α}
    {a : α} (h : Faithful depth encode decode a) :
    Json.required decode (some (encode a)) = some a :=
  h.decoded

/-- Items that are each decoded from what they are encoded as are decoded together. -/
theorem mapM_map_eq_some {α β : Type} {encode : α → β} {decode : β → Option α} {items : List α}
    (h : ∀ a ∈ items, decode (encode a) = some a) :
    (items.map encode).mapM decode = some items := by
  induction items with
  | nil => rfl
  | cons a items ih =>
    obtain ⟨ha, hitems⟩ := List.forall_mem_cons.mp h
    rw [List.map_cons, List.mapM_cons, ha, ih hitems]
    rfl

section Parts

variable {α : Type} {depth : Nat} {encode : α → Json} {decode : Json → Option α}

theorem faithful_string (depth : Nat) (s : String) : Faithful depth .string string? s :=
  ⟨.string depth s, rfl⟩

theorem faithful_nat (depth : Nat) {n : Nat} (h : IsCount n) : Faithful depth .nat count? n :=
  ⟨.nat depth h, if_pos h⟩

theorem Faithful.list {items : List α} (h : ∀ a ∈ items, Faithful depth encode decode a) :
    Faithful (depth + 1) (list encode) (items? decode) items where
  written := .array fun item hitem => by
    obtain ⟨a, ha, rfl⟩ := List.mem_map.mp hitem
    exact (h a ha).written
  decoded := mapM_map_eq_some fun a ha => (h a ha).decoded

theorem faithful_strings (depth : Nat) (items : List String) :
    Faithful (depth + 1) strings strings? items :=
  Faithful.list fun s _ => faithful_string depth s

theorem Faithful.option {value : Option α} (h : ∀ a ∈ value, Faithful depth encode decode a)
    (hnull : ∀ a, encode a ≠ .null) :
    Faithful depth (option encode) (fun json => optional decode (some json)) value := by
  cases value with
  | none => exact ⟨.null depth, rfl⟩
  | some a =>
    refine ⟨(h a rfl).written, ?_⟩
    change optional decode (some (encode a)) = some (some a)
    rw [optional, (h a rfl).decoded]
    · rfl
    · exact hnull a

theorem faithful_option_string (depth : Nat) (value : Option String) :
    Faithful depth (option .string) (fun json => optional string? (some json)) value :=
  Faithful.option (fun s _ => faithful_string depth s) fun _ => Json.noConfusion

end Parts

/-- The member of a name that no other member has. -/
theorem member?_of_nodup {members : List (String × Json)} (h : (members.map Prod.fst).Nodup)
    {member : String × Json} (hmember : member ∈ members) :
    member? (.object members) member.1 = some member.2 := by
  have hfound : (members.reverse.find? fun m => m.1 == member.1) = some member := by
    cases hfind : members.reverse.find? fun m => m.1 == member.1 with
    | none =>
      have hnone := List.find?_eq_none.mp hfind member (List.mem_reverse.mpr hmember)
      exact absurd (beq_self_eq_true member.1) hnone
    | some other =>
      have hother : other ∈ members := List.mem_reverse.mp (List.mem_of_find?_eq_some hfind)
      have hkey : other.1 = member.1 := eq_of_beq (List.find?_some hfind :)
      rw [List.inj_on_of_nodup_map h hother hmember hkey]
  rw [member?, hfound]
  rfl

/-- The fields of a record are found under their names, if these are distinct. -/
theorem fields?_object {members : List (String × Json)} {names : List String}
    (hnames : members.map Prod.fst = names) (h : names.Nodup) :
    fields? (.object members) names = some (members.map fun member => some member.2) := by
  subst hnames
  rw [fields?, List.map_map]
  exact congrArg some (List.map_congr_left fun member hmember => member?_of_nodup h hmember)

end SdkEvidence.Json
