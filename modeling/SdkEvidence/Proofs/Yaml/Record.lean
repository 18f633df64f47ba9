import Mathlib.Data.List.Forall2
import SdkEvidence.Proofs.Repetition
import SdkEvidence.Proofs.Yaml.Document

/-!
# Fields of records

A record that is read at all has for each of its fields what stands under the name of the field, or
in the place of the field where the record is a list (`fields_eq_some`).
-/
namespace SdkEvidence.Yaml.Document

variable {document : Document}

/-- What a node stands for: itself, or what its alias leads to. -/
inductive Resolves (document : Document) : Node → Node → Prop where
  | itself {node : Node} (noAlias : ∀ anchor, node ≠ .alias anchor) : Resolves document node node
  | target {anchor : Nat} {next content : Node} (leads : document.target? anchor = some next)
      (resolves : Resolves document next content) : Resolves document (.alias anchor) content

theorem Resolves.unique {node content other : Node} (h : Resolves document node content)
    (hother : Resolves document node other) : other = content := by
  induction h with
  | itself noAlias =>
    cases hother with
    | itself => rfl
    | target => exact absurd rfl (noAlias _)
  | target leads _ ih =>
    cases hother with
    | itself noAlias => exact absurd rfl (noAlias _)
    | target leads' resolves =>
      rw [leads, Option.some_inj] at leads'
      exact ih (leads' ▸ resolves)

/-- Following a node does not change what it stands for. -/
theorem resolves_follow {node next : Node} {used after : Nat}
    (h : (document.follow node).run used = some (next, after)) (content : Node) :
    Resolves document node content ↔ Resolves document next content := by
  cases node with
  | «alias» anchor =>
    rw [run_follow_alias] at h
    split at h
    · cases h
    · obtain ⟨target, htarget, heq⟩ := Option.map_eq_some_iff.mp h
      cases heq
      constructor
      · rintro (⟨noAlias⟩ | ⟨leads, resolves⟩)
        · exact absurd rfl (noAlias _)
        · rw [htarget, Option.some_inj] at leads
          exact leads ▸ resolves
      · exact .target htarget
  | scalar | sequence | mapping =>
    cases h
    rfl

/-- A record has a content in a field: under the name of the field, or in its place in the list of
all fields. -/
inductive HasField (document : Document) (names : List String) (record : Node) (name : String)
    (content : Node) : Prop where
  | entry {tag : Option String} {entries : List (Node × Node)} {key : Node}
      (mapping : Resolves document record (.mapping tag entries))
      (there : (key, content) ∈ entries) (named : Names document key name)
  | place {tag : Option String} {items : List Node} {i : Nat}
      (sequence : Resolves document record (.sequence tag items))
      (complete : items.length = names.length) (named : names[i]? = some name)
      (there : items[i]? = some content)

theorem Names.unique {key : Node} {name other : String} (h : Names document key name)
    (hother : Names document key other) : name = other := by
  cases h with
  | scalar => cases hother; rfl
  | «alias» stands =>
    cases hother with
    | «alias» stands' =>
      rw [stands, Option.some_inj] at stands'
      cases stands'
      rfl

/-- A key that is read has the name that is read. -/
theorem names_of_keyText {key : Node} {text : String} {used after : Nat}
    (h : (document.keyText key).run used = some (text, after)) : Names document key text := by
  rw [keyText, StateT.run_bind, Option.bind_eq_bind, Option.bind_eq_some_iff] at h
  obtain ⟨⟨next, middle⟩, hfollow, htext⟩ := h
  dsimp only at htext
  cases next with
  | scalar tag found plain =>
    cases htext
    cases key with
    | «alias» anchor =>
      rw [run_follow_alias] at hfollow
      split at hfollow
      · cases hfollow
      · obtain ⟨target, htarget, heq⟩ := Option.map_eq_some_iff.mp hfollow
        cases heq
        exact .alias htarget
    | scalar =>
      cases hfollow
      exact .scalar _ _ _
    | sequence => cases hfollow
    | mapping => cases hfollow
  | «alias» => cases htext
  | sequence => cases htext
  | mapping => cases htext

/-- Entries whose keys are read keep their contents, each under the name of its key. -/
theorem forall₂_of_mapM_keyed {entries : List (Node × Node)} {found : List (String × Node)}
    {used after : Nat} (h : (entries.mapM document.keyed).run used = some (found, after)) :
    List.Forall₂ (fun entry field => Names document entry.1 field.1 ∧ entry.2 = field.2) entries
      found := by
  induction entries generalizing used found with
  | nil =>
    cases h
    exact .nil
  | cons entry rest ih =>
    simp only [List.mapM_cons, keyed, StateT.run_bind, StateT.run_pure, Option.bind_eq_bind,
      Option.bind_eq_some_iff, Option.pure_def, Option.some_inj] at h
    obtain ⟨first, ⟨own, hkey, rfl⟩, behind, hrest, h⟩ := h
    cases h
    exact .cons ⟨names_of_keyText hkey, rfl⟩ (ih hrest)

theorem mem_found {entries : List (Node × Node)} {found : List (String × Node)}
    (h : List.Forall₂ (fun entry field => Names document entry.1 field.1 ∧ entry.2 = field.2)
      entries found) {name : String} {content : Node} :
    (name, content) ∈ found ↔ ∃ key, (key, content) ∈ entries ∧ Names document key name := by
  induction h with
  | nil => simp
  | @cons entry field entries found hfirst _ ih =>
    obtain ⟨key, content'⟩ := entry
    obtain ⟨name', content''⟩ := field
    obtain ⟨hkey, rfl⟩ := hfirst
    simp only [List.mem_cons, ih, Prod.mk.injEq]
    constructor
    · rintro (⟨rfl, rfl⟩ | ⟨key, hmem, hnames⟩)
      · exact ⟨key, Or.inl ⟨rfl, rfl⟩, hkey⟩
      · exact ⟨key, Or.inr hmem, hnames⟩
    · rintro ⟨key, ⟨rfl, rfl⟩ | hmem, hnames⟩
      · exact Or.inl ⟨hnames.unique hkey, rfl⟩
      · exact Or.inr ⟨key, hmem, hnames⟩

/-- The contents that are taken for fields stand under their names. -/
theorem chosen?_eq_some {names : List String} {found : List (String × Node)}
    {contents : List (Option Node)} (h : chosen? names found = some contents) {i : Nat}
    {name : String} (hname : names[i]? = some name) {content : Node} :
    contents[i]? = some (some content) ↔ (name, content) ∈ found := by
  rw [chosen?, Option.ite_none_right_eq_some, Option.some_inj] at h
  obtain ⟨hdiffer, rfl⟩ := h
  have hknown : names.contains name = true := by
    simpa using List.mem_of_getElem? hname
  rw [List.getElem?_map, hname, Option.map_some, Option.some_inj,
    lookup_eq_some_iff_mem hdiffer, List.mem_filter]
  exact and_iff_left hknown

section Read

variable {names : List String} {contents : List (Option Node)} {used after i : Nat} {name : String}
  {content : Node} {tag : Option String}

theorem fields_mapping {entries : List (Node × Node)}
    (h : (document.fields names (.mapping tag entries)).run used = some (contents, after))
    (hname : names[i]? = some name) :
    contents[i]? = some (some content) ↔
      HasField document names (.mapping tag entries) name content := by
  rw [run_fields_mapping, Option.bind_eq_some_iff] at h
  obtain ⟨⟨found, middle⟩, hfound, h⟩ := h
  obtain ⟨chosen, hchosen, heq⟩ := Option.map_eq_some_iff.mp h
  cases heq
  rw [chosen?_eq_some hchosen hname, mem_found (forall₂_of_mapM_keyed hfound)]
  constructor
  · rintro ⟨key, hmem, hkey⟩
    exact .entry (.itself (by simp)) hmem hkey
  · rintro (⟨⟨-⟩, hmem, hkey⟩ | ⟨⟨-⟩, -, -, -⟩)
    exact ⟨_, hmem, hkey⟩

theorem fields_sequence {items : List Node} (hnames : names.Nodup)
    (h : (document.fields names (.sequence tag items)).run used = some (contents, after))
    (hname : names[i]? = some name) :
    contents[i]? = some (some content) ↔
      HasField document names (.sequence tag items) name content := by
  simp only [fields, follow, pure_bind] at h
  split at h
  next hlength =>
    cases h
    rw [List.getElem?_map, Option.map_eq_some_iff]
    simp only [Option.some_inj, exists_eq_right]
    constructor
    · exact .place (.itself (by simp)) hlength hname
    · rintro (⟨⟨-⟩, -, -⟩ | ⟨⟨-⟩, -, hother, hitem⟩)
      obtain ⟨hi, hat⟩ := List.getElem?_eq_some_iff.mp hname
      obtain ⟨hj, hat'⟩ := List.getElem?_eq_some_iff.mp hother
      rw [(List.Nodup.getElem_inj_iff hnames).mp (hat.trans hat'.symm)]
      exact hitem
  next => cases h

theorem fields_scalar {text : String} {plain : Bool}
    (h : (document.fields names (.scalar tag text plain)).run used = some (contents, after)) :
    ¬contents[i]? = some (some content) ∧
      ¬HasField document names (.scalar tag text plain) name content := by
  simp only [fields, follow, pure_bind] at h
  split at h
  next =>
    cases h
    refine ⟨by simp [List.getElem?_replicate], ?_⟩
    rintro (⟨⟨-⟩, -, -⟩ | ⟨⟨-⟩, -, -, -⟩)
  next => cases h

theorem length_fields {record : Node}
    (h : (document.fields names record).run used = some (contents, after)) :
    contents.length = names.length := by
  rw [fields, StateT.run_bind, Option.bind_eq_bind, Option.bind_eq_some_iff] at h
  obtain ⟨⟨next, middle⟩, -, h⟩ := h
  cases next with
  | mapping tag entries =>
    have h : (document.fields names (.mapping tag entries)).run middle = some (contents, after) := h
    rw [run_fields_mapping, Option.bind_eq_some_iff] at h
    obtain ⟨r, -, h⟩ := h
    obtain ⟨chosen, hchosen, heq⟩ := Option.map_eq_some_iff.mp h
    cases heq
    rw [chosen?, Option.ite_none_right_eq_some, Option.some_inj] at hchosen
    rw [← hchosen.2, List.length_map]
  | sequence tag items =>
    dsimp only at h
    split at h
    next hlength => cases h; rwa [List.length_map]
    next => cases h
  | scalar tag text plain =>
    dsimp only at h
    split at h
    next => cases h; rw [List.length_map]
    next => cases h
  | «alias» => cases h

theorem hasField_congr {record next : Node}
    (h : ∀ content, Resolves document record content ↔ Resolves document next content) :
    HasField document names record name content ↔ HasField document names next name content := by
  constructor
  · rintro (⟨mapping, there, named⟩ | ⟨sequence, complete, named, there⟩)
    · exact .entry ((h _).mp mapping) there named
    · exact .place ((h _).mp sequence) complete named there
  · rintro (⟨mapping, there, named⟩ | ⟨sequence, complete, named, there⟩)
    · exact .entry ((h _).mpr mapping) there named
    · exact .place ((h _).mpr sequence) complete named there

/-- A record that is read has what stands in its fields. -/
theorem fields_eq_some (hnames : names.Nodup) {record : Node}
    (h : (document.fields names record).run used = some (contents, after))
    (hname : names[i]? = some name) :
    contents[i]? = some (some content) ↔ HasField document names record name content := by
  rw [fields, StateT.run_bind, Option.bind_eq_bind, Option.bind_eq_some_iff] at h
  obtain ⟨⟨next, middle⟩, hfollow, h⟩ := h
  rw [hasField_congr (resolves_follow hfollow)]
  -- a node that is followed already is read as it is
  cases next with
  | mapping tag entries =>
    have h : (document.fields names (.mapping tag entries)).run middle = some (contents, after) := h
    exact fields_mapping h hname
  | sequence tag items =>
    have h : (document.fields names (.sequence tag items)).run middle = some (contents, after) := h
    exact fields_sequence hnames h hname
  | scalar tag text plain =>
    have h : (document.fields names (.scalar tag text plain)).run middle =
        some (contents, after) := h
    obtain ⟨hnone, hfield⟩ := fields_scalar h
    exact iff_of_false hnone hfield
  | «alias» => cases h

end Read

end SdkEvidence.Yaml.Document
