import Mathlib.Data.List.Monad
import Mathlib.Data.Option.Basic
import SdkEvidence.Proofs.Yaml.Layout
import SdkEvidence.Yaml.Value

/-!
# Documents

`read?_entries` tells the document of a text in block layout: the tokens of each part are read as
the node of the part. A document in which one entry of a record is left open gives the content of
the entry to one field of the record, and to nothing else (`Document.fields_fill`).
-/
namespace SdkEvidence.Yaml

/-! ## Nodes of block layout -/

/-- The node of a scalar. -/
def Scalar.node (s : Scalar) : Node :=
  .scalar none (String.ofList s.word.chars) (s.quoting = .bare)

/-- The node of a key. -/
def Key.node (key : Key) : Node :=
  .scalar none (String.ofList key.chars) true

mutual

/-- The node of what stands behind a key. -/
def Block.node : Block → Node
  | .scalar value => value.node
  | .items [] => Reading.empty
  | .items (value :: listed) => .sequence none ((value :: listed).map Scalar.node)
  | .mapping _ [] => Reading.empty
  | .mapping _ (entry :: rest) => .mapping none (entriesNodes (entry :: rest))

/-- The nodes of the entries of a mapping. -/
def entriesNodes : List (Key × Block) → List (Node × Node)
  | [] => []
  | (key, block) :: rest => (key.node, block.node) :: entriesNodes rest

end

namespace Reading

variable {r : NodeReader} {rest : List Token}

theorem run_node_scalar (text : String) (plain : Bool) (fuel : Nat) (block flat : Bool) :
    (node (fuel + 1) block flat).run { r with tokens := .scalar text plain :: rest } =
      some (.scalar none text plain, { r with tokens := rest }) := by
  simp [node, peek, properties, announce, keep, advance]

theorem run_node_mapping (fuel : Nat) (flat : Bool) :
    (node (fuel + 1) true flat).run { r with tokens := .blockMapping :: rest } =
      ((blockEntries fuel []).run { r with tokens := rest }).map
        fun s => (.mapping none s.1, s.2) := by
  simp [node, peek, properties, announce, keep, advance]

theorem run_node_items (fuel : Nat) (block : Bool) :
    (node (fuel + 1) block true).run { r with tokens := .blockEntry :: rest } =
      ((flatItems fuel []).run { r with tokens := .blockEntry :: rest }).map
        fun s => (.sequence none s.1, s.2) := by
  simp [node, peek, properties, announce, keep]

/-- What stands behind a key is over where the next key or the end of the mapping stands. -/
def AtEntryEnd (rest : List Token) : Prop :=
  rest.head? = some .key ∨ rest.head? = some .blockEnd

theorem run_node_token (value : Scalar) (fuel : Nat) (block flat : Bool) :
    (node (fuel + 1) block flat).run { r with tokens := value.token :: rest } =
      some (value.node, { r with tokens := rest }) :=
  run_node_scalar _ _ _ _ _

theorem token_ne (value : Scalar) : value.token ≠ .blockEntry ∧ value.token ≠ .key ∧
    value.token ≠ .value ∧ value.token ≠ .blockEnd := by
  simp [Scalar.token]

theorem run_flatItems (listed : List Scalar) (done : List Node) {fuel : Nat}
    (hrest : AtEntryEnd rest) (hfuel : listed.length + 1 < fuel) :
    (flatItems fuel done).run { r with tokens := itemsTokens listed ++ rest } =
      some (done.reverse ++ listed.map Scalar.node, { r with tokens := rest }) := by
  induction listed generalizing done fuel with
  | nil =>
    cases fuel with
    | zero => simp at hfuel
    | succ fuel => rcases hrest with hrest | hrest <;> simp [itemsTokens, flatItems, peek, hrest]
  | cons value listed ih =>
    obtain ⟨fuel, rfl⟩ : ∃ spare, fuel = spare + 2 :=
      ⟨fuel - 2, by rw [List.length_cons] at hfuel; omega⟩
    have hnext := ih (value.node :: done) (Nat.lt_of_succ_lt_succ hfuel)
    simp only [itemsTokens] at hnext ⊢
    rw [flatItems]
    simp [peek, advance, nextIn, token_ne, run_node_token, hnext]

/-- Reads what stands behind a key. -/
def behindKey (fuel : Nat) : Reading Node := do
  if ← nextIn [.key, .value, .blockEnd] then pure empty else node fuel true true

theorem run_behindKey_nothing (hrest : AtEntryEnd rest) (fuel : Nat) :
    (behindKey fuel).run { r with tokens := rest } = some (empty, { r with tokens := rest }) := by
  rcases hrest with hrest | hrest <;> simp [behindKey, nextIn, peek, hrest]

theorem run_behindKey_node {token : Token} (fuel : Nat)
    (hfirst : token ∉ [Token.key, .value, .blockEnd]) :
    (behindKey fuel).run { r with tokens := token :: rest } =
      (node fuel true true).run { r with tokens := token :: rest } := by
  simp only [List.mem_cons, List.not_mem_nil, or_false, not_or] at hfirst
  simp [behindKey, nextIn, peek, hfirst]

theorem run_blockEntries_end (done : List (Node × Node)) (fuel : Nat) :
    (blockEntries (fuel + 1) done).run { r with tokens := .blockEnd :: rest } =
      some (done.reverse, { r with tokens := rest }) := by
  simp [blockEntries, peek, advance]

theorem run_blockEntries_key (key : Key) (done : List (Node × Node)) (fuel : Nat) :
    (blockEntries (fuel + 2) done).run { r with tokens := .key :: key.token :: .value :: rest } =
      ((behindKey (fuel + 1)).run { r with tokens := rest }).bind fun s =>
        (blockEntries (fuel + 1) ((key.node, s.1) :: done)).run s.2 := by
  have hkey : (node (fuel + 1) true true).run { r with tokens := key.token :: .value :: rest } =
      some (key.node, { r with tokens := .value :: rest }) :=
    run_node_scalar _ _ _ _ _
  have htoken : key.token ≠ .key ∧ key.token ≠ .value ∧ key.token ≠ .blockEnd := by
    simp [Key.token]
  rw [blockEntries]
  simp [peek, advance, nextIn, htoken, hkey, behindKey]
  split <;> simp

/-- The tokens of what stands behind a key are read as its node. -/
def ReadsNode (block : Block) : Prop :=
  ∀ {r : NodeReader} {rest : List Token} {fuel : Nat}, AtEntryEnd rest →
    block.tokens.length + 2 < fuel →
    (behindKey fuel).run { r with tokens := block.tokens ++ rest } =
      some (block.node, { r with tokens := rest })

/-- The tokens of the entries of a mapping are read as their nodes. -/
def ReadsNodes (entries : List (Key × Block)) : Prop :=
  ∀ (r : NodeReader) (rest : List Token) (done : List (Node × Node)) {fuel : Nat},
    (entriesTokens entries).length + 3 < fuel →
    (blockEntries fuel done).run { r with tokens := entriesTokens entries ++ .blockEnd :: rest } =
      some (done.reverse ++ entriesNodes entries, { r with tokens := rest })

theorem readsNode_scalar (value : Scalar) : ReadsNode (.scalar value) := by
  intro r rest fuel hrest hfuel
  cases fuel with
  | zero => simp at hfuel
  | succ fuel =>
    exact (run_behindKey_node _ (by simp [token_ne])).trans (run_node_token _ _ _ _)

theorem length_itemsTokens (listed : List Scalar) :
    (itemsTokens listed).length = 2 * listed.length := by
  induction listed with
  | nil => rfl
  | cons value listed ih =>
    simp only [itemsTokens, List.flatMap_cons, List.length_append, List.length_cons,
      List.length_nil] at ih ⊢
    omega

theorem readsNode_items (listed : List Scalar) : ReadsNode (.items listed) := by
  intro r rest fuel hrest hfuel
  cases listed with
  | nil => exact run_behindKey_nothing hrest fuel
  | cons value listed =>
    cases fuel with
    | zero => simp at hfuel
    | succ fuel =>
      have hlength := length_itemsTokens (value :: listed)
      rw [Block.tokens, hlength, List.length_cons] at hfuel
      have hitems := run_flatItems (r := r) (value :: listed) [] hrest
        (show (value :: listed).length + 1 < fuel by rw [List.length_cons]; omega)
      have hstart : itemsTokens (value :: listed) ++ rest =
          .blockEntry :: (value.token :: itemsTokens listed ++ rest) := rfl
      rw [hstart] at hitems
      rw [Block.tokens, hstart, run_behindKey_node _ (by simp), run_node_items, hitems]
      rfl

theorem readsNode_nothing (deeper : Nat) : ReadsNode (.mapping deeper []) := by
  intro r rest fuel hrest hfuel
  exact run_behindKey_nothing hrest fuel

theorem readsNode_mapping {deeper : Nat} {entry : Key × Block} {entries : List (Key × Block)}
    (hentries : ReadsNodes (entry :: entries)) :
    ReadsNode (.mapping deeper (entry :: entries)) := by
  intro r rest fuel hrest hfuel
  cases fuel with
  | zero => simp at hfuel
  | succ fuel =>
    simp only [Block.tokens, List.length_cons, List.length_append] at hfuel
    have hnodes := hentries r rest [] (show _ < fuel by omega)
    have htokens : (Block.mapping deeper (entry :: entries)).tokens ++ rest =
        .blockMapping :: (entriesTokens (entry :: entries) ++ .blockEnd :: rest) := by
      simp [Block.tokens]
    rw [htokens, run_behindKey_node _ (by simp), run_node_mapping, hnodes]
    rfl

theorem readsNodes_nil : ReadsNodes [] := by
  intro r rest done fuel hfuel
  cases fuel with
  | zero => simp at hfuel
  | succ fuel => simpa [entriesTokens, entriesNodes] using run_blockEntries_end done fuel

theorem readsNodes_cons {key : Key} {block : Block} {entries : List (Key × Block)}
    (hblock : ReadsNode block) (hentries : ReadsNodes entries) :
    ReadsNodes ((key, block) :: entries) := by
  intro r rest done fuel hfuel
  simp only [entriesTokens, List.length_cons, List.length_append] at hfuel
  obtain ⟨fuel, rfl⟩ : ∃ spare, fuel = spare + 2 := ⟨fuel - 2, by omega⟩
  have hend : AtEntryEnd (entriesTokens entries ++ .blockEnd :: rest) := by
    cases entries with
    | nil => exact Or.inr rfl
    | cons entry entries => exact Or.inl rfl
  have hvalue := hblock (r := r) hend (show block.tokens.length + 2 < fuel + 1 by omega)
  have hmore := hentries r rest ((key.node, block.node) :: done) (show _ < fuel + 1 by omega)
  simp only [entriesTokens, List.cons_append, List.append_assoc]
  rw [run_blockEntries_key, hvalue, Option.bind_some, hmore]
  simp [entriesNodes]

mutual

/-- The tokens of every block are read as its node. -/
theorem readsNode : ∀ block : Block, ReadsNode block
  | .scalar value => readsNode_scalar value
  | .items listed => readsNode_items listed
  | .mapping deeper [] => readsNode_nothing deeper
  | .mapping _ ((_, block) :: rest) =>
    readsNode_mapping (readsNodes_cons (readsNode block) (readsNodes rest))

/-- The tokens of all entries are read as their nodes. -/
theorem readsNodes : ∀ entries : List (Key × Block), ReadsNodes entries
  | [] => readsNodes_nil
  | (_, block) :: rest => readsNodes_cons (readsNode block) (readsNodes rest)

end

/-- The content of a document that is a mapping. -/
theorem run_document_mapping {tokens : List Token} {entries : List (Node × Node)} {fuel : Nat}
    (hentries : ∀ r : NodeReader,
      (blockEntries fuel []).run { r with tokens := tokens ++ [.blockEnd, .streamEnd] } =
        some (entries, { r with tokens := [.streamEnd] })) :
    (document (fuel + 1)).run
        { tokens := .blockMapping :: tokens ++ [.blockEnd, .streamEnd], handles := [], names := []
          places := 0, anchored := [] } =
      some (some (.mapping none entries),
        { tokens := [.streamEnd], handles := [("!", "!"), ("!!", "tag:yaml.org,2002:")]
          names := [], places := 0, anchored := [] }) := by
  have hnode (r : NodeReader) : (node (fuel + 1) true false).run
      { r with tokens := .blockMapping :: (tokens ++ [.blockEnd, .streamEnd]) } =
        some (.mapping none entries, { r with tokens := [.streamEnd] }) := by
    rw [run_node_mapping, hentries]
    rfl
  have hread := hnode { tokens := [], handles := [("!", "!"), ("!!", "tag:yaml.org,2002:")]
                        names := [], places := 0, anchored := [] }
  simp [document, peek, defaultHandles, hread, finish]

end Reading

/-- The document of the text of a mapping. -/
theorem read?_entries (key : Key) (block : Block) (rest : List (Key × Block)) :
    Document.read? (entriesText 0 ((key, block) :: rest)) =
      some { content := some (.mapping none (entriesNodes ((key, block) :: rest)))
             anchored := [] } := by
  have htokens := tokens?_entries key block rest
  generalize hlist : entriesTokens ((key, block) :: rest) = tokens at htokens
  have hfuel : 2 * (Token.blockMapping :: tokens ++ [Token.blockEnd, .streamEnd]).length + 4 =
      2 * tokens.length + 9 + 1 := by
    simp only [List.length_append, List.length_cons, List.length_nil]
    omega
  have hentries (r : NodeReader) : (Reading.blockEntries (2 * tokens.length + 9) []).run
      { r with tokens := tokens ++ [.blockEnd, .streamEnd] } =
        some (entriesNodes ((key, block) :: rest), { r with tokens := [.streamEnd] }) := by
    have hnodes := Reading.readsNodes ((key, block) :: rest) r [.streamEnd] []
      (show _ < 2 * tokens.length + 9 by rw [hlist]; omega)
    rwa [hlist] at hnodes
  simp only [Document.read?, htokens, Option.bind_eq_bind, Option.bind_some]
  rw [hfuel, Reading.run_document_mapping hentries]
  rfl

/-! ## Records with an entry left open -/

/-- A mapping with an entry whose content is left open. -/
structure Slot where
  tag : Option String
  front : List (Node × Node)
  key : Node
  back : List (Node × Node)

/-- The mapping with a content in the open entry. -/
def Slot.fill (slot : Slot) (content : Node) : Node :=
  .mapping slot.tag (slot.front ++ (slot.key, content) :: slot.back)

theorem Slot.weight_fill (slot : Slot) {node other : Node} (h : node.weight = other.weight) :
    (slot.fill node).weight = (slot.fill other).weight := by
  have hentries (front back : List (Node × Node)) (key : Node) :
      Node.weightEntries (front ++ (key, node) :: back) =
        Node.weightEntries (front ++ (key, other) :: back) := by
    induction front with
    | nil => simp [Node.weightEntries, h]
    | cons entry front ih => simp [Node.weightEntries, ih]
  simp [Slot.fill, Node.weight, hentries]

namespace Document

variable {document other : Document} {names : List String} {name : String} {slot : Slot}
  {used : Nat}

/-- Aliases lead to the same nodes in both documents, and may be followed as often. -/
structure SameAliases (document other : Document) : Prop where
  anchored : document.anchored = other.anchored
  limit : document.aliasLimit = other.aliasLimit

theorem SameAliases.follow (h : SameAliases document other) : document.follow = other.follow := by
  funext node
  cases node <;> simp [Document.follow, Document.target?, h.anchored, h.limit]

theorem SameAliases.keyText (h : SameAliases document other) :
    document.keyText = other.keyText := by
  funext node
  simp [Document.keyText, h.follow]

theorem SameAliases.fields (h : SameAliases document other) : document.fields = other.fields := by
  funext names node
  simp [Document.fields, h.follow, h.keyText]

theorem SameAliases.value (h : SameAliases document other) (depth : Nat) :
    document.value depth = other.value depth := by
  funext node
  induction depth generalizing node with
  | zero => simp [Document.value, h.follow]
  | succ depth ih =>
    have hinner : document.value depth = other.value depth := funext ih
    simp [Document.value, h.follow, hinner]

theorem SameAliases.field? {α : Type} (h : SameAliases document other) :
    document.field? (α := α) = other.field? := by
  funext decode node
  cases node <;> simp [Document.field?, h.follow]

/-- The node is a key with a name: a scalar, or an alias of one. -/
inductive Names (document : Document) : Node → String → Prop where
  | scalar (tag : Option String) (name : String) (plain : Bool) :
      Names document (.scalar tag name plain) name
  | alias {anchor : Nat} {tag : Option String} {name : String} {plain : Bool}
      (stands : document.target? anchor = some (.scalar tag name plain)) :
      Names document (.alias anchor) name

theorem run_follow_alias (document : Document) (anchor used : Nat) :
    (document.follow (.alias anchor)).run used =
      if document.aliasLimit < used + 1 then none
      else (document.target? anchor).map fun node => (node, used + 1) := by
  unfold Document.follow
  rw [StateT.run_bind, StateT.run_get, pure_bind]
  cases document.target? anchor <;> dsimp only <;> split <;> rfl

theorem Names.keyText {key : Node} (h : Names document key name) {text : String} {after : Nat}
    (hread : (document.keyText key).run used = some (text, after)) : text = name := by
  cases h with
  | scalar tag name plain =>
    cases hread
    rfl
  | «alias» stands =>
    rw [Document.keyText, StateT.run_bind, run_follow_alias, stands] at hread
    split at hread
    · cases hread
    · cases hread
      rfl

/-- The contents that the fields of a record take from entries whose keys are known. -/
def chosen? (names : List String) (found : List (String × Node)) : Option (List (Option Node)) :=
  let known := found.filter fun field => names.contains field.1
  if (known.map Prod.fst).Nodup then some (names.map fun name => known.lookup name) else none

/-- An entry with the text of its key. -/
def keyed (document : Document) (entry : Node × Node) : Following (String × Node) := do
  pure (← document.keyText entry.1, entry.2)

theorem run_fields_mapping (document : Document) (tag : Option String)
    (entries : List (Node × Node)) :
    (document.fields names (.mapping tag entries)).run used =
      ((entries.mapM document.keyed).run used).bind fun r =>
        (chosen? names r.1).map fun fields => (fields, r.2) := by
  simp only [Document.fields, Document.follow, pure_bind, StateT.run_bind, Option.bind_eq_bind]
  refine congrArg _ (funext fun r => ?_)
  unfold chosen?
  dsimp only
  split <;> simp

theorem run_mapM_keyed (document : Document) (front back : List (Node × Node))
    (key content : Node) :
    ((front ++ (key, content) :: back).mapM document.keyed).run used =
      ((front.mapM document.keyed).run used).bind fun ahead =>
        ((document.keyText key).run ahead.2).bind fun own =>
          ((back.mapM document.keyed).run own.2).bind fun behind =>
            some (ahead.1 ++ (own.1, content) :: behind.1, behind.2) := by
  simp [List.mapM_append, keyed, Option.map_eq_bind]

/-- Where the keys differ, the open entry gives its content to its name and to no other. -/
theorem lookup_fill {front back : List (String × Node)} (content : Node) (asked : String)
    (hdiffer : ((front ++ (name, content) :: back).map Prod.fst).Nodup) :
    (front ++ (name, content) :: back).lookup asked =
      if asked = name then some content else (front ++ back).lookup asked := by
  by_cases hasked : asked = name
  · subst hasked
    have hmissing : front.lookup asked = none := by
      rw [List.lookup_eq_none_iff]
      intro entry hentry
      simp [List.nodup_append] at hdiffer
      simpa using Ne.symm (hdiffer.2.2 entry.1 entry.2 hentry).1
    simp [List.lookup_append, hmissing]
  · have hother : (asked == name) = false := by simpa using hasked
    simp [List.lookup_append, List.lookup_cons, hother, hasked]

theorem map_lookup_fill {front back : List (String × Node)} (content : Node) {others : List String}
    (habsent : name ∉ others) (hdiffer : ((front ++ (name, content) :: back).map Prod.fst).Nodup) :
    others.map (fun asked => (front ++ (name, content) :: back).lookup asked) =
      others.map fun asked => (front ++ back).lookup asked := by
  refine List.map_congr_left fun asked hasked => ?_
  rw [lookup_fill content asked hdiffer, if_neg]
  rintro rfl
  exact habsent hasked

theorem chosen?_fill {before after : List String} (hnames : names = before ++ name :: after)
    (hdistinct : names.Nodup) (front back : List (String × Node)) :
    ∃ frame : Option (List (Option Node) × List (Option Node)),
      (∀ r ∈ frame, r.1.length = before.length ∧ r.2.length = after.length) ∧
      ∀ content, chosen? names (front ++ (name, content) :: back) =
        frame.map fun r => r.1 ++ some content :: r.2 := by
  have hknown : name ∈ names := by simp [hnames]
  have hkeep (content : Node) :
      (front ++ (name, content) :: back).filter (fun field => names.contains field.1) =
        front.filter (fun field => names.contains field.1) ++
          (name, content) :: back.filter (fun field => names.contains field.1) := by
    simp [List.filter_append, hknown]
  simp only [chosen?, hkeep]
  generalize front.filter (fun field => names.contains field.1) = front
  generalize back.filter (fun field => names.contains field.1) = back
  by_cases hapart : (front.map Prod.fst ++ name :: back.map Prod.fst).Nodup
  · refine ⟨some (before.map fun asked => (front ++ back).lookup asked,
      after.map fun asked => (front ++ back).lookup asked), by simp, fun content => ?_⟩
    have hapart' : ((front ++ (name, content) :: back).map Prod.fst).Nodup := by simpa using hapart
    subst hnames
    obtain ⟨hbefore, hafter⟩ : name ∉ before ∧ name ∉ after := by grind
    rw [if_pos hapart', List.map_append, List.map_cons, map_lookup_fill content hbefore hapart',
      map_lookup_fill content hafter hapart', lookup_fill content name hapart', if_pos rfl,
      Option.map_some]
  · refine ⟨none, by simp, fun content => ?_⟩
    have hapart' : ¬((front ++ (name, content) :: back).map Prod.fst).Nodup := by
      simpa using hapart
    rw [if_neg hapart', Option.map_none]

/-- Where a record is read with an entry left open, the content of the entry becomes one field and
has no part in the others. -/
theorem fields_fill {before after : List String} (document : Document)
    (hnames : names = before ++ name :: after) (hdistinct : names.Nodup)
    (hkey : Names document slot.key name) (used : Nat) :
    ∃ frame : Option ((List (Option Node) × List (Option Node)) × Nat),
      (∀ r ∈ frame, r.1.1.length = before.length ∧ r.1.2.length = after.length) ∧
      ∀ content, (document.fields names (slot.fill content)).run used =
        frame.map fun r => (r.1.1 ++ some content :: r.1.2, r.2) := by
  simp only [Slot.fill, run_fields_mapping, run_mapM_keyed, Option.bind_assoc]
  cases (slot.front.mapM document.keyed).run used with
  | none => exact ⟨none, by simp, fun content => rfl⟩
  | some ahead =>
    cases hown : (document.keyText slot.key).run ahead.2 with
    | none => exact ⟨none, by simp, fun content => by simp [hown]⟩
    | some r =>
      cases hbehind : (slot.back.mapM document.keyed).run r.2 with
      | none => exact ⟨none, by simp, fun content => by simp [hown, hbehind]⟩
      | some rest =>
        obtain ⟨frame, hlengths, hfill⟩ := chosen?_fill hnames hdistinct ahead.1 rest.1
        refine ⟨frame.map fun r => (r, rest.2), ?_, fun content => ?_⟩
        · cases frame <;> simp_all
        · simp [hown, hbehind, hkey.keyText hown, hfill, Function.comp_def]

/-- A scalar stands for its value wherever a value may stand. -/
theorem run_value_scalar (document : Document) (depth : Nat) (tag : Option String) (text : String)
    (plain : Bool) :
    (document.value depth (.scalar tag text plain)).run used =
      (scalarValue? tag text plain).map fun value => (value, used) := by
  cases depth <;> cases hvalue : scalarValue? tag text plain <;>
    simp [Document.value, Document.follow, hvalue]

end Document

end SdkEvidence.Yaml
