import Mathlib.Data.List.Forall2
import SdkEvidence.Manifest.Info
import SdkEvidence.Proofs.Dictionary
import SdkEvidence.Proofs.Text.Line
import SdkEvidence.Proofs.Yaml.Document
import SdkEvidence.Proofs.Yaml.Number

/-!
# Numbers in apktool.yml

A number in apktool.yml counts with the text that it is shown with, and a quoted one with the text
that is written. A document in which one entry is left open is read as far as it can be, and the
content of the entry is put in afterwards (`puts_ofDocument`), so the two spellings of a number can
be told apart only by the one field that they stand in.
-/
namespace SdkEvidence.Manifest

open Yaml

namespace ApktoolFile

/-! ## Fields -/

/-- What the tool says in a file of its own. -/
inductive Field where
  | version
  | minSdk
  | targetSdk
  | versionCode
  | versionName
  deriving DecidableEq, Repr

namespace Field

/-- The keys that lead to a field. -/
def path : Field → List String
  | version => ["version"]
  | minSdk => ["sdkInfo", "minSdkVersion"]
  | targetSdk => ["sdkInfo", "targetSdkVersion"]
  | versionCode => ["versionInfo", "versionCode"]
  | versionName => ["versionInfo", "versionName"]

/-- The file with another text in a field. -/
def put (field : Field) (text : Option String) (file : ApktoolFile) : ApktoolFile :=
  match field with
  | version => { file with version := text }
  | minSdk => { file with minSdk := text }
  | targetSdk => { file with targetSdk := text }
  | versionCode => { file with versionCode := text }
  | versionName => { file with versionName := text }

end Field

/-- A document in which the content of one entry is left open. No anchor stands on a part of the
document that holds the entry. -/
structure Place where
  slots : List Slot
  anchored : List Anchored

/-- The document with a node in the open entry. -/
def Place.document (place : Place) (node : Yaml.Node) : Document :=
  { content := some (place.slots.foldr Slot.fill node), anchored := place.anchored }

/-- The keys around the open entry are those of a field. -/
def Place.Leads (place : Place) (field : Field) : Prop :=
  List.Forall₂ (fun slot name => (place.document Reading.empty).Names slot.key name)
    place.slots field.path

theorem Place.sameAliases (place : Place) {node other : Yaml.Node}
    (h : node.weight = other.weight) :
    (place.document node).SameAliases (place.document other) where
  anchored := rfl
  limit := by
    have hweight : (place.slots.foldr Slot.fill node).weight =
        (place.slots.foldr Slot.fill other).weight := by
      induction place.slots with
      | nil => exact h
      | cons slot slots ih => exact slot.weight_fill ih
    simp [Document.aliasLimit, Place.document, hweight]

/-! ## Putting a value in -/

section Puts

variable {α β : Type} {value? : Option Value} {put : Value → α → α} {put' : Value → β → β}

/-- A run is another one with a value put into its result. Where there is no value it fails. -/
def Puts (value? : Option Value) (put : Value → α → α) (filled empty : Following α) : Prop :=
  ∀ used, filled.run used =
    (empty.run used).bind fun r => value?.map fun value => (put value r.1, r.2)

theorem Puts.bind {filled empty : Following α} {f : α → Following β}
    (h : Puts value? put filled empty) (hf : ∀ value a, f (put value a) = put' value <$> f a) :
    Puts value? put' (filled >>= f) (empty >>= f) := by
  intro used
  rw [StateT.run_bind, StateT.run_bind, h used]
  cases empty.run used with
  | none => rfl
  | some r =>
    cases value? with
    | none => simp
    | some value => simp [hf, Option.map_eq_bind]

theorem Puts.after (front : Following α) {filled empty : α → Following β}
    (h : ∀ a, Puts value? put' (filled a) (empty a)) :
    Puts value? put' (front >>= filled) (front >>= empty) := by
  intro used
  simp only [StateT.run_bind, Option.bind_eq_bind, Option.bind_assoc]
  exact congrArg _ (funext fun r => h r.1 r.2)

/-- A content that is put in among the fields of a record is put in where the record is used. -/
theorem Puts.fields {document : Document} {slot : Slot} {names : List String} {name : String}
    {content other : Yaml.Node} {next : List (Option Yaml.Node) → Following β}
    (before after : List String)
    (hdistinct : names.Nodup) (hnames : names = before ++ name :: after)
    (hkey : document.Names slot.key name)
    (h : ∀ front back, front.length = before.length → back.length = after.length →
      Puts value? put' (next (front ++ some content :: back))
        (next (front ++ some other :: back))) :
    Puts value? put' (document.fields names (slot.fill content) >>= next)
      (document.fields names (slot.fill other) >>= next) := by
  intro used
  obtain ⟨frame, hlengths, hfill⟩ := Document.fields_fill document hnames hdistinct hkey used
  rw [StateT.run_bind, StateT.run_bind, hfill, hfill]
  cases frame with
  | none => rfl
  | some r => exact h _ _ (hlengths r rfl).1 (hlengths r rfl).2 r.2

end Puts

/-! ## Reading a document with an open entry -/

section Reading

variable {document : Document} {depth : Nat} {first second : String} {slot : Slot}
  {tag : Option String} {text : String} {plain : Bool}

theorem puts_value (hthere : Document.isAbsent? (.scalar tag text plain) = some false) :
    Puts (Document.scalarValue? tag text plain) (fun value _ => some value)
      (document.field? (document.value depth) (some (.scalar tag text plain)))
      (document.field? (document.value depth) (some Reading.empty)) := by
  intro used
  have hempty : (document.field? (document.value depth) (some Reading.empty)).run used =
      some (none, used) := rfl
  rw [hempty, Option.bind_some]
  simp [Document.field?, Document.follow, hthere, Document.run_value_scalar, Function.comp_def]

/-- The contents of two fields as values. -/
def pairValues (document : Document) (depth : Nat) :
    List (Option Yaml.Node) → Following (Option Value × Option Value)
  | [a, b] => do
      pure (← document.field? (document.value depth) a, ← document.field? (document.value depth) b)
  | _ => pure (none, none)

theorem pair_fill (content : Yaml.Node) :
    pair document depth first second (some (slot.fill content)) =
      document.fields [first, second] (slot.fill content) >>= pairValues document depth := by
  have hfield : document.field? (document.fields [first, second]) (some (slot.fill content)) =
      some <$> document.fields [first, second] (slot.fill content) := rfl
  rw [pair, hfield, bind_map_left]
  refine congrArg _ (funext fun contents => ?_)
  match contents with
  | [] | [_] | [_, _] | _ :: _ :: _ :: _ => rfl

theorem puts_pair_first (hkey : document.Names slot.key first) (hdiffer : first ≠ second)
    (hthere : Document.isAbsent? (.scalar tag text plain) = some false) :
    Puts (Document.scalarValue? tag text plain) (fun value r => (some value, r.2))
      (pair document depth first second (some (slot.fill (.scalar tag text plain))))
      (pair document depth first second (some (slot.fill Reading.empty))) := by
  rw [pair_fill, pair_fill]
  refine Puts.fields [] [second] (by simpa using hdiffer) rfl hkey fun front back hfront hback => ?_
  obtain rfl := List.length_eq_zero_iff.mp hfront
  obtain ⟨b, rfl⟩ := List.length_eq_one_iff.mp hback
  exact (puts_value hthere).bind fun value a => by simp

theorem puts_pair_second (hkey : document.Names slot.key second) (hdiffer : first ≠ second)
    (hthere : Document.isAbsent? (.scalar tag text plain) = some false) :
    Puts (Document.scalarValue? tag text plain) (fun value r => (r.1, some value))
      (pair document depth first second (some (slot.fill (.scalar tag text plain))))
      (pair document depth first second (some (slot.fill Reading.empty))) := by
  rw [pair_fill, pair_fill]
  refine Puts.fields [first] [] (by simpa using hdiffer) rfl hkey fun front back hfront hback => ?_
  obtain ⟨a, rfl⟩ := List.length_eq_one_iff.mp hfront
  obtain rfl := List.length_eq_zero_iff.mp hback
  exact Puts.after _ fun a => (puts_value hthere).bind fun value b => by simp

/-- What the contents of the three fields of a document say. -/
def ofContents (document : Document) : List (Option Yaml.Node) → Following ApktoolFile
  | [version, sdk, info] => do
      let version ← document.field? (document.value (Document.depthLimit - 1)) version
      let (min, target) ←
        pair document (Document.depthLimit - 2) "minSdkVersion" "targetSdkVersion" sdk
      let (code, name) ←
        pair document (Document.depthLimit - 2) "versionCode" "versionName" info
      pure
        { version := said? version, versionName := said? name, versionCode := said? code
          minSdk := said? min, targetSdk := said? target }
  | _ => failure

theorem ofContents_congr {document other : Document} (h : document.SameAliases other) :
    ofContents document = ofContents other := by
  have hpair : pair document = pair other := by
    funext depth first second node
    simp only [pair, h.field?, h.fields, h.value]
  funext contents
  match contents with
  | [] | [_] | [_, _] | _ :: _ :: _ :: _ :: _ => rfl
  | [_, _, _] => simp only [ofContents, hpair, h.field?, h.value]

theorem ofDocument_document (place : Place) (node : Yaml.Node)
    (h : node.weight = Reading.empty.weight) :
    ofDocument (place.document node) =
      (place.document Reading.empty).fields ["version", "sdkInfo", "versionInfo"]
        (place.slots.foldr Slot.fill node) >>= ofContents (place.document Reading.empty) := by
  have hsame := place.sameAliases h
  rw [← ofContents_congr hsame, ← hsame.fields]
  rfl

/-- The file with other platform levels. -/
def withLevels (levels : Option Value × Option Value) (file : ApktoolFile) : ApktoolFile :=
  { file with minSdk := said? levels.1, targetSdk := said? levels.2 }

/-- The file with another version of the package. -/
def withCodes (codes : Option Value × Option Value) (file : ApktoolFile) : ApktoolFile :=
  { file with versionCode := said? codes.1, versionName := said? codes.2 }

section Records

variable {value? : Option Value} {content other : Yaml.Node}
  {put : Value → Option Value × Option Value → Option Value × Option Value}
  {put' : Value → ApktoolFile → ApktoolFile}

theorem records_nodup : ["version", "sdkInfo", "versionInfo"].Nodup := by
  decide

/-- What is put among the platform levels of a document is put among those that it says. -/
theorem puts_sdkInfo (hkey : document.Names slot.key "sdkInfo")
    (h : Puts value? put
      (pair document (Document.depthLimit - 2) "minSdkVersion" "targetSdkVersion" (some content))
      (pair document (Document.depthLimit - 2) "minSdkVersion" "targetSdkVersion" (some other)))
    (hput : ∀ value levels file,
      withLevels (put value levels) file = put' value (withLevels levels file)) :
    Puts value? put'
      (document.fields ["version", "sdkInfo", "versionInfo"] (slot.fill content) >>=
        ofContents document)
      (document.fields ["version", "sdkInfo", "versionInfo"] (slot.fill other) >>=
        ofContents document) := by
  refine Puts.fields ["version"] ["versionInfo"] records_nodup rfl hkey
    fun front back hfront hback => ?_
  obtain ⟨version, rfl⟩ := List.length_eq_one_iff.mp hfront
  obtain ⟨info, rfl⟩ := List.length_eq_one_iff.mp hback
  refine Puts.after _ fun v => h.bind fun value levels => ?_
  rw [map_bind]
  exact bind_congr fun codes =>
    congrArg pure (hput value levels (withCodes codes { silent with version := said? v }))

/-- What is put among the version of the package in a document is put among what it says of it. -/
theorem puts_versionInfo (hkey : document.Names slot.key "versionInfo")
    (h : Puts value? put
      (pair document (Document.depthLimit - 2) "versionCode" "versionName" (some content))
      (pair document (Document.depthLimit - 2) "versionCode" "versionName" (some other)))
    (hput : ∀ value codes file,
      withCodes (put value codes) file = put' value (withCodes codes file)) :
    Puts value? put'
      (document.fields ["version", "sdkInfo", "versionInfo"] (slot.fill content) >>=
        ofContents document)
      (document.fields ["version", "sdkInfo", "versionInfo"] (slot.fill other) >>=
        ofContents document) := by
  refine Puts.fields ["version", "sdkInfo"] [] records_nodup rfl hkey
    fun front back hfront hback => ?_
  obtain ⟨version, sdk, rfl⟩ := List.length_eq_two.mp hfront
  obtain rfl := List.length_eq_zero_iff.mp hback
  exact Puts.after _ fun v => Puts.after _ fun levels => h.bind fun value codes =>
    congrArg pure (hput value codes (withLevels levels { silent with version := said? v }))

end Records

/-- A document says what it says without the scalar, and in the field of the scalar the text of its
value. -/
theorem puts_ofDocument {place : Place} {field : Field} (hleads : place.Leads field)
    (hthere : Document.isAbsent? (.scalar tag text plain) = some false) :
    Puts (Document.scalarValue? tag text plain) (fun value => field.put (said? (some value)))
      (ofDocument (place.document (.scalar tag text plain)))
      (ofDocument (place.document Reading.empty)) := by
  rw [ofDocument_document place (.scalar tag text plain) rfl,
    ofDocument_document place Reading.empty rfl]
  obtain ⟨slots, anchored⟩ := place
  simp only [Place.Leads] at hleads
  simp only
  generalize Place.document ⟨slots, anchored⟩ Reading.empty = document at hleads ⊢
  have hlevels : "minSdkVersion" ≠ "targetSdkVersion" := by decide
  have hcodes : "versionCode" ≠ "versionName" := by decide
  cases field with
  | version =>
    obtain - | ⟨hkey, hrest⟩ := hleads
    cases hrest
    refine Puts.fields [] ["sdkInfo", "versionInfo"] records_nodup rfl hkey
      fun front back hfront hback => ?_
    obtain rfl := List.length_eq_zero_iff.mp hfront
    obtain ⟨sdk, info, rfl⟩ := List.length_eq_two.mp hback
    exact (puts_value hthere).bind fun value a => by simp [Field.put]
  | minSdk =>
    obtain - | ⟨hrecord, - | ⟨hkey, hrest⟩⟩ := hleads
    cases hrest
    exact puts_sdkInfo hrecord (puts_pair_first hkey hlevels hthere) fun _ _ _ => rfl
  | targetSdk =>
    obtain - | ⟨hrecord, - | ⟨hkey, hrest⟩⟩ := hleads
    cases hrest
    exact puts_sdkInfo hrecord (puts_pair_second hkey hlevels hthere) fun _ _ _ => rfl
  | versionCode =>
    obtain - | ⟨hrecord, - | ⟨hkey, hrest⟩⟩ := hleads
    cases hrest
    exact puts_versionInfo hrecord (puts_pair_first hkey hcodes hthere) fun _ _ _ => rfl
  | versionName =>
    obtain - | ⟨hrecord, - | ⟨hkey, hrest⟩⟩ := hleads
    cases hrest
    exact puts_versionInfo hrecord (puts_pair_second hkey hcodes hthere) fun _ _ _ => rfl

end Reading

/-! ## The two spellings of a number -/

/-- What the document says with nothing in the open entry; none if it cannot be used. -/
def Place.rest? (place : Place) : Option ApktoolFile :=
  ((ofDocument (place.document Reading.empty)).run 0).map Prod.fst

/-- The file is read as the document with a text in the open entry, which is plain or quoted. -/
def Place.Spelled (place : Place) (file t : String) (plain : Bool) : Prop :=
  Document.read? (withoutTags file.toList) = some (place.document (.scalar none t plain))

theorem said?_text {value : Value} {text : String} (htext : scalarText? value = some text)
    (hchars : NumberLike text.toList) : said? (some value) = some text := by
  have htrim : Text.trimmed text = text := by
    rw [Text.trimmed, hchars.trim, String.ofList_toList]
  simp [said?, htext, htrim, hchars.reads.1]

section Spelling

variable {place : Place} {field : Field} {file t : String} {plain : Bool}

theorem isAbsent?_number (ht : IsNumber t) (plain : Bool) :
    Document.isAbsent? (.scalar none t plain) = some false := by
  obtain ⟨hfilled, hnull, -⟩ := (isNumber_chars ht).reads
  cases plain <;> simp [Document.isAbsent?, hfilled, hnull]

theorem read_spelled (hleads : place.Leads field) (hfile : place.Spelled file t plain)
    (ht : IsNumber t) :
    read file = (place.rest?.bind fun rest =>
      (Document.scalarValue? none t plain).map fun value =>
        field.put (said? (some value)) rest).getD silent := by
  have hputs := puts_ofDocument hleads (isAbsent?_number ht plain) 0
  rw [Place.Spelled] at hfile
  simp only [read, hfile, Option.bind_eq_bind, Option.bind_some, hputs, Place.rest?]
  cases (ofDocument (place.document Reading.empty)).run 0 with
  | none => rfl
  | some r => cases Document.scalarValue? none t plain <;> rfl

/-- A quoted number counts as it is written. -/
theorem read_quoted (hleads : place.Leads field) (hfile : place.Spelled file t false)
    (ht : IsNumber t) : read file = (place.rest?.map (field.put (some t))).getD silent := by
  have hsaid : said? (some (.string t)) = some t := said?_text rfl (isNumber_chars ht)
  rw [read_spelled hleads hfile ht, Option.map_eq_bind]
  simp [Document.scalarValue?, localTag?, hsaid]

/-- A bare number counts as it is shown. -/
theorem read_bare {n : Number} (hleads : place.Leads field) (hfile : place.Spelled file t true)
    (hn : plainValue? t = some (.number n)) :
    read file = (place.rest?.map (field.put (some n.text))).getD silent := by
  have hsaid : said? (some (.number n)) = some n.text := said?_text rfl (text_chars hn)
  rw [read_spelled hleads hfile (Or.inr ⟨n, hn⟩), Option.map_eq_bind]
  simp [Document.scalarValue?, localTag?, hn, hsaid]

/-- A file with a bare number that is too wide counts as if it were missing. -/
theorem read_tooWide (hleads : place.Leads field) (hfile : place.Spelled file t true)
    (hwide : plainValue? t = none) : read file = silent := by
  rw [read_spelled hleads hfile (Or.inl hwide)]
  cases place.rest? <;> simp [Document.scalarValue?, localTag?, hwide]

end Spelling

/-! ## Files in block layout -/

theorem exists_word {t : String} (ht : IsNumber t) :
    ∃ word : Word, String.ofList word.chars = t := by
  obtain ⟨hfilled, hchars⟩ := isNumber_chars ht
  have hword : ∀ c ∈ numberChars, c ∈ wordChars := List.all_iff_forall_prop.mp (by decide)
  refine ⟨⟨t.toList, hfilled, fun c hc => hword c (hchars c hc), fun hhyphen => ?_⟩,
    String.ofList_toList⟩
  obtain rfl : t = "-" := String.toList_injective hhyphen
  rcases ht with hwide | ⟨n, hn⟩
  · cases hwide
  · cases hn

/-- A line with a tag of the tool. -/
structure TagLine where
  chars : List Char
  marked : ['!', '!'] <+: Text.trimStart chars
  whole : ∀ c ∈ chars, c ≠ '\n' ∧ c ≠ '\r'

/-- A mapping with one entry left open: how much deeper than one column it stands than the mapping
around it, if there is one, and what stands before and behind the open entry. -/
structure Frame where
  deeper : Nat
  front : List (Key × Block)
  key : Key
  back : List (Key × Block)

/-- The entries with a block in the open one. -/
def Frame.fill (frame : Frame) (block : Block) : List (Key × Block) :=
  frame.front ++ (frame.key, block) :: frame.back

/-- The mapping around the open entry. -/
def Frame.slot (frame : Frame) : Slot :=
  { tag := none, front := entriesNodes frame.front, key := frame.key.node
    back := entriesNodes frame.back }

/-- A file whose lines are those of mappings, behind lines with tags. The open entry is one of the
innermost mapping. -/
structure Layout where
  tags : List TagLine
  outer : Frame
  inner : List Frame

namespace Layout

/-- What stands behind the open key of the outermost mapping. -/
def block (layout : Layout) (value : Scalar) : Block :=
  layout.inner.foldr (fun frame block => .mapping frame.deeper (frame.fill block)) (.scalar value)

/-- The file with a scalar in the open entry. -/
def file (layout : Layout) (value : Scalar) : String :=
  String.ofList ((layout.tags.flatMap fun tag => tag.chars ++ ['\n'])
    ++ entriesText 0 (layout.outer.fill (layout.block value)))

/-- The document of the file. -/
def place (layout : Layout) : Place :=
  { slots := (layout.outer :: layout.inner).map Frame.slot, anchored := [] }

/-- The keys around the open entry are those of a field. -/
def Leads (layout : Layout) (field : Field) : Prop :=
  (layout.outer :: layout.inner).map (fun frame => String.ofList frame.key.chars) = field.path

theorem Leads.place {layout : Layout} {field : Field} (h : layout.Leads field) :
    layout.place.Leads field := by
  rw [Place.Leads, ← h, List.forall₂_map_right_iff, Layout.place, List.forall₂_map_left_iff,
    List.forall₂_same]
  intro frame _
  exact Document.Names.scalar _ _ _

theorem entriesNodes_append (front back : List (Key × Block)) :
    entriesNodes (front ++ back) = entriesNodes front ++ entriesNodes back := by
  induction front with
  | nil => rfl
  | cons entry front ih => simp [entriesNodes, ih]

theorem node_fill (frame : Frame) (deeper : Nat) (block : Block) :
    (Block.mapping deeper (frame.fill block)).node = frame.slot.fill block.node := by
  have hfilled : frame.fill block ≠ [] := by simp [Frame.fill]
  obtain ⟨entry, rest, hentries⟩ := List.exists_cons_of_ne_nil hfilled
  rw [hentries, Block.node, ← hentries, Frame.fill, entriesNodes_append, entriesNodes]
  rfl

theorem node_block (layout : Layout) (value : Scalar) :
    (layout.block value).node = (layout.inner.map Frame.slot).foldr Slot.fill value.node := by
  rw [block]
  induction layout.inner with
  | nil => rfl
  | cons frame inner ih =>
    rw [List.foldr_cons, node_fill, ih]
    rfl

/-! ### The lines with tags -/

theorem withoutTags_append {line : List Char} (hline : '\n' ∉ line) (rest : List Char) :
    withoutTags (line ++ '\n' :: rest) =
      withoutTags (line ++ ['\n']) ++ withoutTags rest := by
  have hnone : Text.lines [] = [] := rfl
  rw [withoutTags, withoutTags, withoutTags, Text.lines_append_cons hline,
    Text.lines_append_cons hline, hnone, List.filter_cons, List.filter_cons]
  split <;> simp

theorem withoutTags_line {line : List Char} (hline : ∀ c ∈ line, c ≠ '\n' ∧ c ≠ '\r') :
    withoutTags (line ++ ['\n']) =
      if ['!', '!'].isPrefixOf (Text.trimStart line) then [] else line ++ ['\n'] := by
  have hbreak : '\n' ∉ line := fun h => (hline _ h).1 rfl
  have hreturn : '\r' ∉ line := fun h => (hline _ h).2 rfl
  have hnone : Text.lines [] = [] := rfl
  rw [withoutTags, Text.lines_append_cons hbreak, Text.dropCarriageReturn_of_notMem hreturn, hnone,
    List.filter_cons]
  split <;> simp_all

theorem withoutTags_tags (tags : List TagLine) (rest : List Char) :
    withoutTags ((tags.flatMap fun tag => tag.chars ++ ['\n']) ++ rest) = withoutTags rest := by
  induction tags with
  | nil => rfl
  | cons tag tags ih =>
    have hbreak : '\n' ∉ tag.chars := fun h => (tag.whole _ h).1 rfl
    have htag : withoutTags (tag.chars ++ ['\n']) = [] := by
      rw [withoutTags_line tag.whole, if_pos (List.isPrefixOf_iff_prefix.mpr tag.marked)]
    rw [List.flatMap_cons, List.append_assoc, List.append_assoc, List.singleton_append,
      withoutTags_append hbreak, htag, List.nil_append, ih]

/-- Lines without exclamation marks and carriage returns stay as they are. -/
theorem withoutTags_eq_self (body : List Char) (h : ∀ c ∈ body, c ≠ '!' ∧ c ≠ '\r') :
    withoutTags (body ++ ['\n']) = body ++ ['\n'] := by
  induction hlength : body.length using Nat.strong_induction_on generalizing body with
  | _ length ih =>
    have hline (line : List Char) (hbreak : '\n' ∉ line) (hchars : ∀ c ∈ line, c ∈ body) :
        withoutTags (line ++ ['\n']) = line ++ ['\n'] := by
      rw [withoutTags_line fun c hc => ⟨ne_of_mem_of_not_mem hc hbreak, (h c (hchars c hc)).2⟩,
        if_neg]
      intro hprefix
      have hmark : '!' ∈ Text.trimStart line :=
        (List.isPrefixOf_iff_prefix.mp hprefix).mem List.mem_cons_self
      exact (h _ (hchars _ ((List.dropWhile_suffix _).mem hmark))).1 rfl
    by_cases hbreak : '\n' ∈ body
    · obtain ⟨line, more, rfl, hfirst⟩ := List.eq_append_cons_of_mem hbreak
      have hmore := ih more.length (by simp [← hlength]; omega) more
        (fun c hc => h c (by simp [hc])) rfl
      rw [List.append_assoc, List.cons_append, withoutTags_append hfirst, hmore,
        hline line hfirst (by simp_all)]
      simp
    · exact hline body hbreak fun c hc => hc

/-- A file in lines is read as its document, with the scalar in the open entry. -/
theorem spelled (layout : Layout) (quoting : Quoting) (word : Word) :
    layout.place.Spelled (layout.file ⟨quoting, word⟩) (String.ofList word.chars)
      (quoting = .bare) := by
  have hfilled : layout.outer.fill (layout.block ⟨quoting, word⟩) ≠ [] := by simp [Frame.fill]
  obtain ⟨⟨key, block⟩, rest, hentries⟩ := List.exists_cons_of_ne_nil hfilled
  obtain ⟨body, hbody⟩ : ∃ body, entriesText 0 ((key, block) :: rest) = body ++ ['\n'] := by
    obtain ⟨front, hfront⟩ := exists_entriesText_eq ((key, block) :: rest) 0
    cases front with
    | nil => simp [entriesText] at hfront
    | cons c front => exact ⟨front, (List.cons.inj hfront).2⟩
  have hchars : ∀ c ∈ body, c ≠ '!' ∧ c ≠ '\r' := by
    intro c hc
    have hmem : c ∈ entriesText 0 ((key, block) :: rest) := by simp [hbody, hc]
    exact (textChar_facts c (entries_mem_textChars _ 0 hmem)).2.2
  have hlines : withoutTags (layout.file ⟨quoting, word⟩).toList =
      entriesText 0 ((key, block) :: rest) := by
    rw [file, String.toList_ofList, withoutTags_tags, hentries, hbody,
      withoutTags_eq_self body hchars]
  have hnodes : entriesNodes ((key, block) :: rest) =
      entriesNodes layout.outer.front ++
        (layout.outer.key.node, (layout.block ⟨quoting, word⟩).node) ::
          entriesNodes layout.outer.back := by
    rw [← hentries, Frame.fill, entriesNodes_append, entriesNodes]
  rw [Place.Spelled, hlines, read?_entries, hnodes, node_block]
  rfl

end Layout

end ApktoolFile

/-! ## Facts -/

namespace ApktoolFile.Field

/-- What is reported for a field: a fact of the package, or the build attribute of the tool. -/
def fact? (field : Field) (info : ManifestInfo) : Option String :=
  match field with
  | version => info.buildAttributes.get? "apktool"
  | minSdk => some info.facts.minSdk
  | targetSdk => some info.facts.targetSdk
  | versionCode => some info.facts.versionCode
  | versionName => some info.facts.versionName

/-- What the manifest itself says for a field. -/
def stated? (field : Field) (text : String) : Option String :=
  match field with
  | version => none
  | minSdk => valueOf? (firstAttributes platformTag text.toList) "android:minSdkVersion"
  | targetSdk => valueOf? (firstAttributes platformTag text.toList) "android:targetSdkVersion"
  | versionCode => valueOf? (firstAttributes manifestTag text.toList) "android:versionCode"
  | versionName => valueOf? (firstAttributes manifestTag text.toList) "android:versionName"

/-- The manifest itself says what a field is, so that apktool.yml is not asked. -/
def Stated (field : Field) (text : String) : Prop :=
  (field.stated? text).getD unknown ≠ unknown

instance (field : Field) (text : String) : Decidable (field.Stated text) :=
  inferInstanceAs (Decidable (_ ≠ _))

end ApktoolFile.Field

section Facts

variable {field : ApktoolFile.Field} {text file other t : String} {strings : Option String}
  {place : ApktoolFile.Place} {said said' : Option String}

theorem known_of_ne {stated : Option String} (h : stated.getD unknown ≠ unknown)
    (said : Option String) : known stated said = stated.getD unknown := by
  simp [known, h]

theorem known_of_eq {stated : Option String} (h : stated.getD unknown = unknown) (t : String) :
    known stated (some t) = t := by
  simp [known, h]

theorem get?_insertAll_append (build : List (String × String)) (key value : String) :
    (Dictionary.insertAll [] (build ++ [(key, value)])).get? key = some value := by
  rw [Dictionary.insertAll, List.foldl_append]
  simp [Dictionary.get?_insert]

theorem info_congr (h : ApktoolFile.read file = ApktoolFile.read other) :
    info text strings (some file) = info text strings (some other) := by
  simp [info, h]

theorem info_of_silent (h : ApktoolFile.read file = ApktoolFile.silent) :
    info text strings (some file) = info text strings none := by
  simp [info, h]

/-- What the file says in a field is reported, unless the manifest says it. -/
theorem fact?_info (strings : Option String)
    (h : ApktoolFile.read file = (place.rest?.map (field.put (some t))).getD .silent)
    (hrest : place.rest?.isSome) (hstated : ¬field.Stated text) :
    field.fact? (info text strings (some file)) = some t := by
  obtain ⟨rest, hrest⟩ := Option.isSome_iff_exists.mp hrest
  rw [hrest, Option.map_some, Option.getD_some] at h
  have hunknown : (field.stated? text).getD unknown = unknown := not_not.mp hstated
  have hknown := known_of_eq hunknown t
  cases field with
  | version =>
    simpa [ApktoolFile.Field.fact?, info, h, ApktoolFile.Field.put] using
      get?_insertAll_append _ _ _
  | minSdk | targetSdk | versionCode | versionName =>
    simp only [ApktoolFile.Field.stated?] at hknown
    simp [ApktoolFile.Field.fact?, info, h, ApktoolFile.Field.put, hknown]

/-- What the file says in a field does not matter where the manifest says it. -/
theorem info_of_stated (strings : Option String) (hstated : field.Stated text)
    (h : ApktoolFile.read file = (place.rest?.map (field.put said)).getD .silent)
    (h' : ApktoolFile.read other = (place.rest?.map (field.put said')).getD .silent) :
    info text strings (some file) = info text strings (some other) := by
  have hknown := known_of_ne hstated
  cases hrest : place.rest? with
  | none =>
    rw [hrest] at h h'
    exact info_congr (h.trans h'.symm)
  | some rest =>
    rw [hrest, Option.map_some, Option.getD_some] at h h'
    cases field with
    | version => exact absurd rfl hstated
    | minSdk | targetSdk | versionCode | versionName =>
      simp only [ApktoolFile.Field.stated?] at hknown
      simp [info, h, h', ApktoolFile.Field.put, hknown]

theorem info_eq_iff (text : String) (strings : Option String) {shown written : String}
    (h : ApktoolFile.read file = (place.rest?.map (field.put (some shown))).getD .silent)
    (h' : ApktoolFile.read other = (place.rest?.map (field.put (some written))).getD .silent) :
    info text strings (some file) = info text strings (some other) ↔
      place.rest? = none ∨ field.Stated text ∨ shown = written := by
  constructor
  · intro hinfo
    by_contra hneither
    simp only [not_or] at hneither
    obtain ⟨hrest, hstated, hdiffer⟩ := hneither
    have hrest := Option.isSome_iff_ne_none.mpr hrest
    have hfact := fact?_info strings h hrest hstated
    rw [hinfo, fact?_info strings h' hrest hstated] at hfact
    exact hdiffer (Option.some.inj hfact).symm
  · rintro (hrest | hstated | rfl)
    · rw [hrest] at h h'
      exact info_congr (h.trans h'.symm)
    · exact info_of_stated strings hstated h h'
    · exact info_congr (h.trans h'.symm)

end Facts

open ApktoolFile

/-- Of two files that differ in nothing but the quotes around a number, the quoted one reports it as
it is written and the bare one as it is shown, unless the rest of the files cannot be used or the
manifest says itself what the field is. So they say the same exactly if the number is shown as it
is written, as every integer of sixty-four bits in decimal digits is. A file with a bare integer
that is too wide counts as if it were missing. Files in block layout are such files, whatever else
stands in them. -/
theorem info_number_spelling {t : String} (ht : IsNumber t) (field : Field) (text : String)
    (strings : Option String) :
    (∀ (place : Place) (bare quoted : String), place.Leads field →
      place.Spelled bare t true → place.Spelled quoted t false →
      (place.rest?.isSome → ¬field.Stated text →
        field.fact? (info text strings (some quoted)) = some t) ∧
      (∀ n, plainValue? t = some (.number n) →
        (place.rest?.isSome → ¬field.Stated text →
          field.fact? (info text strings (some bare)) = some n.text) ∧
        (info text strings (some bare) = info text strings (some quoted) ↔
          place.rest? = none ∨ field.Stated text ∨ n.text = t)) ∧
      (∀ i, extent i = .fits → t = toString i →
        info text strings (some bare) = info text strings (some quoted)) ∧
      (plainValue? t = none → info text strings (some bare) = info text strings none)) ∧
    ∃ word : Word, String.ofList word.chars = t ∧ ∀ layout : Layout, layout.Leads field →
      layout.place.Leads field ∧ ∀ quoting : Quoting,
        layout.place.Spelled (layout.file ⟨quoting, word⟩) t (quoting = .bare) := by
  constructor
  · intro place bare quoted hleads hbare hquoted
    have hwritten := read_quoted hleads hquoted ht
    have hiff (n : Number) (hn : plainValue? t = some (.number n)) :=
      info_eq_iff text strings (read_bare hleads hbare hn) hwritten
    refine ⟨fact?_info strings hwritten, fun n hn => ⟨?_, hiff n hn⟩, ?_, ?_⟩
    · exact fact?_info strings (read_bare hleads hbare hn)
    · rintro i hfits rfl
      exact (hiff _ (plainValue?_toString hfits)).mpr (Or.inr (Or.inr rfl))
    · exact fun hwide => info_of_silent (read_tooWide hleads hbare hwide)
  · obtain ⟨word, rfl⟩ := exists_word ht
    exact ⟨word, rfl, fun layout hlayout =>
      ⟨hlayout.place, fun quoting => layout.spelled quoting word⟩⟩

/-- A file with the least platform level and nothing else. -/
def minSdkFile : Layout :=
  { tags :=
      [{ chars := "!!brut.androlib.meta.MetaInfo".toList
         marked := by decide
         whole := List.all_iff_forall_prop.mp (by decide) }]
    outer := { deeper := 0, front := [], key := sdkInfo, back := [] }
    inner := [{ deeper := 1, front := [], key := minSdkVersion, back := [] }] }
where
  sdkInfo : Key :=
    { chars := "sdkInfo".toList
      filled := by decide
      plain := List.all_iff_forall_prop.mp (by decide)
      noHyphen := by decide
      short := by decide }
  minSdkVersion : Key :=
    { chars := "minSdkVersion".toList
      filled := by decide
      plain := List.all_iff_forall_prop.mp (by decide)
      noHyphen := by decide
      short := by decide }

theorem info_number_spelling_hexadecimal :
    IsNumber "0x15" ∧
    (info "<manifest package=\"x\">" none
      (some "!!brut.androlib.meta.MetaInfo\nsdkInfo:\n  minSdkVersion: 0x15\n")).facts.minSdk
        = "21" ∧
    (info "<manifest package=\"x\">" none
      (some "!!brut.androlib.meta.MetaInfo\nsdkInfo:\n  minSdkVersion: '0x15'\n")).facts.minSdk
        = "0x15" := by
  have hnumber : plainValue? "0x15" = some (.number (.integer 21)) := rfl
  have ht : IsNumber "0x15" := Or.inr ⟨_, hnumber⟩
  obtain ⟨hfiles, word, hword, hlayouts⟩ :=
    info_number_spelling ht .minSdk "<manifest package=\"x\">" none
  obtain ⟨hleads, hspelled⟩ := hlayouts minSdkFile rfl
  have hchars : word.chars = "0x15".toList := by rw [← hword, String.toList_ofList]
  have hbare : minSdkFile.file ⟨.bare, word⟩ =
      "!!brut.androlib.meta.MetaInfo\nsdkInfo:\n  minSdkVersion: 0x15\n" := by
    obtain ⟨chars, hfilled, hplain, hhyphen⟩ := word
    subst hchars
    rfl
  have hquoted : minSdkFile.file ⟨.single, word⟩ =
      "!!brut.androlib.meta.MetaInfo\nsdkInfo:\n  minSdkVersion: '0x15'\n" := by
    obtain ⟨chars, hfilled, hplain, hhyphen⟩ := word
    subst hchars
    rfl
  have hrest : minSdkFile.place.rest?.isSome := by decide +kernel
  have hstated : ¬Field.minSdk.Stated "<manifest package=\"x\">" := by decide +kernel
  obtain ⟨hwritten, hshown, -⟩ :=
    hfiles _ _ _ hleads (hspelled .bare) (hspelled .single)
  have hwritten := hwritten hrest hstated
  have hshown := (hshown _ hnumber).1 hrest hstated
  rw [hbare] at hshown
  rw [hquoted] at hwritten
  exact ⟨ht, Option.some.inj hshown, Option.some.inj hwritten⟩

set_option maxRecDepth 10000 in
/-- A bare version 1.10 is reported as 1.1. -/
theorem bare_version_shown :
    IsNumber "1.10" ∧
    (info "<manifest package=\"x\">" none
      (some "versionInfo:\n  versionName: 1.10\n")).facts.versionName = "1.1" ∧
    (info "<manifest package=\"x\">" none
      (some "versionInfo:\n  versionName: \"1.10\"\n")).facts.versionName = "1.10" := by
  have hnumber : plainValue? "1.10" = some (.number (.float "1.1")) := rfl
  exact ⟨Or.inr ⟨_, hnumber⟩, by decide +kernel⟩

end SdkEvidence.Manifest
