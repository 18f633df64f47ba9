import SdkEvidence.Proofs.Manifest.ApktoolFile
import SdkEvidence.Proofs.Manifest.Search
import SdkEvidence.Proofs.Yaml.Record

/-!
# The manifest and apktool.yml

What the file tells of a field is the text of the scalar that stands there
(`Reads.get_eq_some_iff`). It is reported where the manifest does not carry the attribute of the
field, or carries it with the word for unknown; any other value of the attribute is reported
whatever the file tells (`info_precedence`).
-/
namespace SdkEvidence.Manifest

open Yaml

namespace ApktoolFile

/-! ## What stands in a document -/

/-- A node gives a text: it stands for a scalar that has this text, without the blanks around it. -/
def GivesText (document : Document) (node : Yaml.Node) (t : String) : Prop :=
  ∃ tag text plain value s, document.Resolves node (.scalar tag text plain) ∧
    Document.scalarValue? tag text plain = some value ∧ scalarText? value = some s ∧
    t = Text.trimmed s ∧ t ≠ ""

/-- Fields lead from a node to a content. -/
def Leads (document : Document) (node : Yaml.Node) :
    List (List String × String) → Yaml.Node → Prop
  | [], content => content = node
  | (names, name) :: rest, content =>
      ∃ inner, document.HasField names node name inner ∧ Leads document inner rest content

namespace Field

/-- What a file tells of a field. -/
def get (field : Field) (file : ApktoolFile) : Option String :=
  match field with
  | version => file.version
  | minSdk => file.minSdk
  | targetSdk => file.targetSdk
  | versionCode => file.versionCode
  | versionName => file.versionName

/-- The fields of a document. -/
def records : List String := ["version", "sdkInfo", "versionInfo"]

/-- The platform levels. -/
def levels : List String := ["minSdkVersion", "targetSdkVersion"]

/-- The version of the package. -/
def codes : List String := ["versionCode", "versionName"]

/-- The fields that lead to a field, each with all fields of its record. -/
def way : Field → List (List String × String)
  | version => [(records, "version")]
  | minSdk => [(records, "sdkInfo"), (levels, "minSdkVersion")]
  | targetSdk => [(records, "sdkInfo"), (levels, "targetSdkVersion")]
  | versionCode => [(records, "versionInfo"), (codes, "versionCode")]
  | versionName => [(records, "versionInfo"), (codes, "versionName")]

/-- A document gives a text in a field. -/
def Gives (field : Field) (document : Document) (t : String) : Prop :=
  ∃ root content, document.content = some root ∧ Leads document root field.way content ∧
    GivesText document content t

end Field

/-- A file is read as a document that can be used, with what it tells. -/
def Reads (file : String) (document : Document) (told : ApktoolFile) : Prop :=
  Document.read? (withoutTags file.toList) = some document ∧
    ∃ used, (ofDocument document).run 0 = some (told, used)

/-! ## Scalars -/

section Scalars

variable {document : Document} {t : String} {depth used after : Nat}

theorem said?_eq_some_iff {value : Value} : said? (some value) = some t ↔
    ∃ s, scalarText? value = some s ∧ t = Text.trimmed s ∧ t ≠ "" := by
  rw [said?, Option.bind_some]
  cases scalarText? value with
  | none => simp
  | some s =>
    simp only [Option.map_some, Option.bind_some, Option.ite_none_left_eq_some, Option.some_inj,
      exists_eq_left']
    constructor
    · rintro ⟨hfilled, rfl⟩
      exact ⟨rfl, hfilled⟩
    · rintro ⟨rfl, hfilled⟩
      exact ⟨hfilled, rfl⟩

theorem givesText_scalar {tag : Option String} {text : String} {plain : Bool} :
    GivesText document (.scalar tag text plain) t ↔
      ∃ value, Document.scalarValue? tag text plain = some value ∧ said? (some value) = some t := by
  simp only [said?_eq_some_iff]
  constructor
  · rintro ⟨tag', text', plain', value, s, ⟨-⟩, hvalue, hsaid⟩
    exact ⟨value, hvalue, s, hsaid⟩
  · rintro ⟨value, hvalue, s, hsaid⟩
    exact ⟨tag, text, plain, value, s, .itself (by simp), hvalue, hsaid⟩

theorem givesText_congr {node next : Yaml.Node}
    (h : ∀ content, document.Resolves node content ↔ document.Resolves next content) :
    GivesText document node t ↔ GivesText document next t := by
  simp only [GivesText, h]

/-- Collections tell nothing. -/
theorem said?_withTag {value : Value} (h : scalarText? value = none) (tag : Option String) :
    said? (some (Document.withTag tag value)) = none := by
  rw [said?, Option.bind_some, Document.withTag]
  split
  next => rfl
  next => rw [h]; rfl

/-- A node is read as what it stands for. -/
theorem exists_run_value {node : Yaml.Node} {value : Value}
    (h : (document.value depth node).run used = some (value, after)) :
    ∃ next middle, (document.follow node).run used = some (next, middle) ∧
      (document.value depth next).run middle = some (value, after) ∧
      ∀ anchor, next ≠ .alias anchor := by
  cases depth with
  | zero =>
    rw [Document.value, StateT.run_bind, Option.bind_eq_bind, Option.bind_eq_some_iff] at h
    obtain ⟨⟨next, middle⟩, hfollow, hnext⟩ := h
    refine ⟨next, middle, hfollow, ?_⟩
    cases next with
    | scalar => exact ⟨hnext, by simp⟩
    | sequence | mapping | «alias» => cases hnext
  | succ depth =>
    rw [Document.value, StateT.run_bind, Option.bind_eq_bind, Option.bind_eq_some_iff] at h
    obtain ⟨⟨next, middle⟩, hfollow, hnext⟩ := h
    refine ⟨next, middle, hfollow, ?_⟩
    cases next with
    | scalar | sequence | mapping => exact ⟨hnext, by simp⟩
    | «alias» => cases hnext

theorem said?_sequence {tag : Option String} {items : List Yaml.Node} {value : Value}
    (h : (document.value depth (.sequence tag items)).run used = some (value, after)) :
    said? (some value) = none := by
  cases depth with
  | zero => cases h
  | succ depth =>
    simp only [Document.value, Document.follow, pure_bind, StateT.run_bind, StateT.run_pure,
      Option.bind_eq_bind, Option.bind_eq_some_iff, Option.pure_def, Option.some_inj] at h
    obtain ⟨values, -, h⟩ := h
    cases h
    exact said?_withTag rfl tag

theorem said?_mapping {tag : Option String} {entries : List (Yaml.Node × Yaml.Node)} {value : Value}
    (h : (document.value depth (.mapping tag entries)).run used = some (value, after)) :
    said? (some value) = none := by
  cases depth with
  | zero => cases h
  | succ depth =>
    simp only [Document.value, Document.follow, pure_bind] at h
    rw [StateT.run_bind, Option.bind_eq_bind, Option.bind_eq_some_iff] at h
    obtain ⟨values, -, h⟩ := h
    split at h
    next =>
      cases h
      exact said?_withTag rfl tag
    next => cases h

/-- A value tells the text that its node gives. -/
theorem said?_value {node : Yaml.Node} {value : Value}
    (h : (document.value depth node).run used = some (value, after)) :
    said? (some value) = some t ↔ GivesText document node t := by
  obtain ⟨next, middle, hfollow, h, hresolved⟩ := exists_run_value h
  rw [givesText_congr (Document.resolves_follow hfollow)]
  cases next with
  | scalar tag text plain =>
    rw [Document.run_value_scalar, Option.map_eq_some_iff] at h
    obtain ⟨found, hfound, heq⟩ := h
    cases heq
    simp [givesText_scalar, hfound]
  | sequence =>
    rw [said?_sequence h]
    exact iff_of_false (by simp) (by rintro ⟨_, _, _, _, _, ⟨-⟩, -⟩)
  | mapping =>
    rw [said?_mapping h]
    exact iff_of_false (by simp) (by rintro ⟨_, _, _, _, _, ⟨-⟩, -⟩)
  | «alias» anchor => exact absurd rfl (hresolved anchor)

/-- A scalar that stands for the absence of a value is null. -/
theorem scalarValue?_of_isAbsent? {tag : Option String} {text : String} {plain : Bool}
    (h : Document.isAbsent? (.scalar tag text plain) = some true) :
    Document.scalarValue? tag text plain = some .null := by
  cases plain with
  | false => cases h
  | true =>
    cases tag with
    | none =>
      have hnull : text = "" ∨ isNullText text = true := by simpa [Document.isAbsent?] using h
      simp [Document.scalarValue?, localTag?, plainValue?, hnull]
    | some tag =>
      simp only [Document.isAbsent?, Option.some_inj, Option.isSome_some, if_true] at h
      split at h
      next hheld =>
        subst hheld
        have hnull : isNullText text = true := by simpa using h
        have hlocal : localTag? (some (coreTag "null")) = none := by decide
        have hheld : heldTo? (coreTag "null") text = some .null := by
          rw [heldTo?, if_neg (by decide), if_neg (by decide), if_neg (by decide),
            if_pos rfl, if_pos hnull]
        simp [Document.scalarValue?, hlocal, hheld]
      next => cases h

theorem not_givesText_of_isAbsent? {node : Yaml.Node} (h : Document.isAbsent? node = some true) :
    ¬GivesText document node t := by
  cases node with
  | scalar tag text plain =>
    rw [givesText_scalar, scalarValue?_of_isAbsent? h]
    rintro ⟨value, ⟨-⟩, hsaid⟩
    cases hsaid
  | sequence | mapping | «alias» => cases h

/-- A field that is read is absent or decoded. -/
theorem exists_run_field? {α : Type} {decode : Yaml.Node → Following α} {node : Yaml.Node}
    {decoded : Option α}
    (h : (document.field? decode (some node)).run used = some (decoded, after)) :
    ∃ next middle, (document.follow node).run used = some (next, middle) ∧
      (Document.isAbsent? next = some true ∧ decoded = none ∨
        ∃ a, (decode next).run middle = some (a, after) ∧ decoded = some a) := by
  rw [Document.field?, StateT.run_bind, Option.bind_eq_bind, Option.bind_eq_some_iff] at h
  obtain ⟨⟨next, middle⟩, hfollow, h⟩ := h
  refine ⟨next, middle, hfollow, ?_⟩
  cases habsent : Document.isAbsent? next with
  | none => simp [habsent] at h
  | some absent =>
    cases absent with
    | true =>
      simp only [habsent, StateT.run_bind, StateT.run_lift, Option.bind_eq_bind,
        Option.bind_some, if_true, StateT.run_pure, Option.pure_def, Option.some_inj,
        Prod.mk.injEq] at h
      exact .inl ⟨rfl, h.1.symm⟩
    | false =>
      simp [habsent] at h
      obtain ⟨a, hdecode, rfl⟩ := h
      exact .inr ⟨a, hdecode, rfl⟩

/-- A field tells the text that stands in it. -/
theorem said?_field? {node? : Option Yaml.Node} {value? : Option Value}
    (h : (document.field? (document.value depth) node?).run used = some (value?, after)) :
    said? value? = some t ↔ ∃ node, node? = some node ∧ GivesText document node t := by
  cases node? with
  | none =>
    cases h
    simp [said?]
  | some node =>
    simp only [Option.some_inj, exists_eq_left']
    obtain ⟨next, middle, hfollow, ⟨habsent, rfl⟩ | ⟨value, hvalue, rfl⟩⟩ := exists_run_field? h
    · rw [givesText_congr (Document.resolves_follow hfollow)]
      exact iff_of_false (by simp [said?]) (not_givesText_of_isAbsent? habsent)
    · rw [givesText_congr (Document.resolves_follow hfollow)]
      exact said?_value hvalue

/-- A text is given in a field of a record, if the record is there. -/
def GivenIn (document : Document) (record : Option Yaml.Node) (names : List String) (name : String)
    (t : String) : Prop :=
  ∃ node content, record = some node ∧ document.HasField names node name content ∧
    GivesText document content t

theorem not_givenIn_of_isAbsent? {node : Yaml.Node} {names : List String} {name : String}
    (h : Document.isAbsent? node = some true) :
    ¬GivenIn document (some node) names name t := by
  rintro ⟨_, content, ⟨-⟩, hfield, -⟩
  cases node with
  | scalar =>
    obtain (⟨⟨-⟩, -, -⟩ | ⟨⟨-⟩, -, -, -⟩) := hfield
  | sequence | mapping | «alias» => cases h

/-- The two fields of a record tell what stands in them. -/
theorem said?_pair {first second : String} (hdiffer : first ≠ second) {record : Option Yaml.Node}
    {values : Option Value × Option Value}
    (h : (pair document depth first second record).run used = some (values, after)) :
    (said? values.1 = some t ↔ GivenIn document record [first, second] first t) ∧
      (said? values.2 = some t ↔ GivenIn document record [first, second] second t) := by
  have hsilent : said? none = none := rfl
  rw [pair, StateT.run_bind, Option.bind_eq_bind, Option.bind_eq_some_iff] at h
  obtain ⟨⟨contents, middle⟩, hrecord, h⟩ := h
  cases record with
  | none =>
    cases hrecord
    cases h
    simp [hsilent, GivenIn]
  | some node =>
    have hnames : [first, second].Nodup := by simpa using hdiffer
    -- the record may be an alias, which is followed before its fields are read
    obtain ⟨next, followed, hfollow, hnext⟩ := exists_run_field? hrecord
    have hcongr (name : String) : GivenIn document (some node) [first, second] name t ↔
        GivenIn document (some next) [first, second] name t := by
      simp [GivenIn, Document.hasField_congr (Document.resolves_follow hfollow)]
    rw [hcongr, hcongr]
    obtain ⟨habsent, rfl⟩ | ⟨contents, hcontents, rfl⟩ := hnext
    · cases h
      simp [hsilent, not_givenIn_of_isAbsent? habsent]
    · have hlength := Document.length_fields hcontents
      obtain ⟨a, b, rfl⟩ := List.length_eq_two.mp hlength
      have hfirst (content : Yaml.Node) : a = some content ↔
          document.HasField [first, second] next first content := by
        simpa using Document.fields_eq_some hnames hcontents (i := 0) rfl
      have hsecond (content : Yaml.Node) : b = some content ↔
          document.HasField [first, second] next second content := by
        simpa using Document.fields_eq_some hnames hcontents (i := 1) rfl
      simp only [StateT.run_bind, StateT.run_pure, Option.bind_eq_bind, Option.bind_eq_some_iff,
        Option.pure_def, Option.some_inj] at h
      obtain ⟨first, hreadFirst, second, hreadSecond, h⟩ := h
      cases h
      simp [said?_field? hreadFirst, said?_field? hreadSecond, GivenIn, ← hfirst, ← hsecond]

/-- What is given in a field of a record is given at the end of the way there. -/
theorem givenIn_iff_leads {root : Yaml.Node} {outer names : List String} {record name : String}
    {node? : Option Yaml.Node}
    (h : ∀ node, node? = some node ↔ document.HasField outer root record node) :
    GivenIn document node? names name t ↔
      ∃ content, Leads document root [(outer, record), (names, name)] content ∧
        GivesText document content t := by
  simp only [GivenIn, h, Leads]
  constructor
  · rintro ⟨node, content, hrecord, hfield, htext⟩
    exact ⟨content, ⟨node, hrecord, content, hfield, rfl⟩, htext⟩
  · rintro ⟨content, ⟨node, hrecord, _, hfield, rfl⟩, htext⟩
    exact ⟨node, _, hrecord, hfield, htext⟩

theorem gives_iff_leads {root : Yaml.Node} (h : document.content = some root) (field : Field) :
    field.Gives document t ↔
      ∃ content, Leads document root field.way content ∧ GivesText document content t := by
  simp [Field.Gives, h]

end Scalars

/-- What a file tells of a field is the text that its document gives there. -/
theorem Reads.get_eq_some_iff {file t : String} {document : Document} {told : ApktoolFile}
    (h : Reads file document told) (field : Field) :
    field.get told = some t ↔ field.Gives document t := by
  obtain ⟨-, used, h⟩ := h
  cases hroot : document.content with
  | none =>
    rw [ofDocument, hroot] at h
    cases h
    refine iff_of_false (by cases field <;> simp [Field.get, silent]) ?_
    rintro ⟨root, content, hcontent, -⟩
    rw [hroot] at hcontent
    cases hcontent
  | some root =>
    have hparts : ofDocument document =
        document.fields Field.records root >>= ofContents document := by
      rw [ofDocument, hroot]
      rfl
    rw [hparts, StateT.run_bind, Option.bind_eq_bind, Option.bind_eq_some_iff] at h
    obtain ⟨⟨contents, middle⟩, hcontents, h⟩ := h
    obtain ⟨version, sdk, info, rfl⟩ := List.length_eq_three.mp (Document.length_fields hcontents)
    have hnames : Field.records.Nodup := records_nodup
    have hversion (content : Yaml.Node) : version = some content ↔
        document.HasField Field.records root "version" content := by
      rw [← Document.fields_eq_some hnames hcontents (i := 0) rfl]
      simp
    have hsdk (content : Yaml.Node) : sdk = some content ↔
        document.HasField Field.records root "sdkInfo" content := by
      rw [← Document.fields_eq_some hnames hcontents (i := 1) rfl]
      simp
    have hinfo (content : Yaml.Node) : info = some content ↔
        document.HasField Field.records root "versionInfo" content := by
      rw [← Document.fields_eq_some hnames hcontents (i := 2) rfl]
      simp
    simp only [ofContents, StateT.run_bind, StateT.run_pure, Option.bind_eq_bind,
      Option.bind_eq_some_iff, Option.pure_def, Option.some_inj] at h
    obtain ⟨first, hfirst, levels, hlevels, codes, hcodes, h⟩ := h
    cases h
    rw [gives_iff_leads hroot]
    cases field with
    | version => simp [Field.get, said?_field? hfirst, hversion, Field.way, Leads]
    | minSdk => exact (said?_pair (by decide) hlevels).1.trans (givenIn_iff_leads hsdk)
    | targetSdk => exact (said?_pair (by decide) hlevels).2.trans (givenIn_iff_leads hsdk)
    | versionCode => exact (said?_pair (by decide) hcodes).1.trans (givenIn_iff_leads hinfo)
    | versionName => exact (said?_pair (by decide) hcodes).2.trans (givenIn_iff_leads hinfo)

/-! ## What the manifest carries -/

namespace Field

/-- The opening of the tag that carries a field, and the name of its attribute there. -/
def attribute? : Field → Option (String × String)
  | version => none
  | minSdk => some ("<uses-sdk", "android:minSdkVersion")
  | targetSdk => some ("<uses-sdk", "android:targetSdkVersion")
  | versionCode => some ("<manifest", "android:versionCode")
  | versionName => some ("<manifest", "android:versionName")

/-- The first tag of the manifest that can carry a field does, with a value. -/
def Carries (field : Field) (text value : String) : Prop :=
  ∃ opening name body, field.attribute? = some (opening, name) ∧
    FirstTag opening.toList text.toList body ∧ HasValue body name value

theorem stated?_eq_some_iff {field : Field} {text value : String} :
    field.stated? text = some value ↔ field.Carries text value := by
  cases field with
  | version => simp [stated?, Carries, attribute?]
  | minSdk | targetSdk | versionCode | versionName =>
    simp [stated?, Carries, attribute?, ← valueOf?_firstAttributes, platformTag, manifestTag]

end Field

end ApktoolFile

open ApktoolFile

section Facts

variable {field : Field} {text : String}

theorem fact?_eq_known (hfield : field ≠ .version) (text : String) (strings file : Option String) :
    field.fact? (info text strings file) =
      some (known (field.stated? text) (field.get ((file.map ApktoolFile.read).getD silent))) := by
  cases field with
  | version => exact absurd rfl hfield
  | minSdk | targetSdk | versionCode | versionName => rfl

/-- A value other than the word for unknown is reported. -/
theorem fact?_of_carries {value : String} (hfield : field ≠ .version)
    (hcarries : field.Carries text value) (hvalue : value ≠ unknown)
    (strings file : Option String) : field.fact? (info text strings file) = some value := by
  have hstated : (field.stated? text).getD unknown = value := by
    rw [Field.stated?_eq_some_iff.mpr hcarries, Option.getD_some]
  rw [fact?_eq_known hfield, known_of_ne (hstated.symm ▸ hvalue), hstated]

/-- Where the manifest carries no other value, what the file tells is reported. -/
theorem fact?_of_unknown (hfield : field ≠ .version)
    (hunknown : ∀ value, field.Carries text value → value = unknown)
    (strings file : Option String) :
    field.fact? (info text strings file) =
      some ((field.get ((file.map ApktoolFile.read).getD silent)).getD unknown) := by
  have hstated : (field.stated? text).getD unknown = unknown := by
    cases hvalue : field.stated? text with
    | none => rfl
    | some value => exact hunknown value (Field.stated?_eq_some_iff.mp hvalue)
  rw [fact?_eq_known hfield, known, if_pos hstated]

theorem read_of_reads {file : String} {document : Document} {told : ApktoolFile}
    (h : Reads file document told) : ApktoolFile.read file = told := by
  obtain ⟨hdocument, used, hrun⟩ := h
  simp [ApktoolFile.read, hdocument, hrun]

/-- A file that cannot be used tells nothing. -/
theorem read_of_not_reads {file : String} (h : ¬∃ document told, Reads file document told) :
    ApktoolFile.read file = silent := by
  rw [ApktoolFile.read]
  cases hdocument : Document.read? (withoutTags file.toList) with
  | none => rfl
  | some document =>
    cases hrun : (ofDocument document).run 0 with
    | none => simp [hrun]
    | some r => exact absurd ⟨document, r.1, hdocument, r.2, hrun⟩ h

/-- A file that tells something of every field but the version of the tool. -/
def filledFile : String :=
  "sdkInfo:\n  minSdkVersion: 21\n  targetSdkVersion: 34\n" ++
    "versionInfo:\n  versionCode: 1042\n  versionName: 4.2.0\n"

set_option maxRecDepth 10000 in
theorem read_filledFile : ApktoolFile.read filledFile =
    { version := none, versionName := some "4.2.0", versionCode := some "1042"
      minSdk := some "21", targetSdk := some "34" } := by
  decide +kernel

theorem get_filledFile (hfield : field ≠ .version) :
    ∃ t, field.get (ApktoolFile.read filledFile) = some t ∧ t ≠ unknown := by
  rw [read_filledFile]
  cases field with
  | version => exact absurd rfl hfield
  | minSdk | targetSdk | versionCode | versionName => exact ⟨_, rfl, by decide⟩

end Facts

/-- An attribute of the first tag that can carry a field is reported whatever apktool.yml tells,
unless its value is the word for unknown: then it counts as if it were not there. Where it is not
there the text is reported that the file gives in the field, and the word for unknown if the file
gives none. A file that cannot be used counts as if it were missing. -/
theorem info_precedence {field : Field} (hfield : field ≠ .version) (text : String)
    (strings : Option String) :
    (∀ value, field.Carries text value →
      ((∀ file, field.fact? (info text strings file) = some value) ↔ value ≠ unknown)) ∧
    ((∀ value, field.Carries text value → value = unknown) →
      field.fact? (info text strings none) = some unknown ∧
      ∀ file document told, Reads file document told →
        (∀ t, field.Gives document t →
          field.fact? (info text strings (some file)) = some t) ∧
        ((∀ t, ¬field.Gives document t) →
          field.fact? (info text strings (some file)) = some unknown)) ∧
    ∀ file, (¬∃ document told, Reads file document told) →
      info text strings (some file) = info text strings none := by
  refine ⟨fun value hcarries => ⟨?_, ?_⟩, fun hunknown => ⟨?_, ?_⟩, fun file hfile => ?_⟩
  · rintro hreported rfl
    obtain ⟨t, ht, hother⟩ := get_filledFile hfield
    have hunknown (value : String) (h : field.Carries text value) : value = unknown := by
      rw [← Field.stated?_eq_some_iff] at h hcarries
      exact Option.some.inj (h.symm.trans hcarries)
    have hfile := hreported (some filledFile)
    rw [fact?_of_unknown hfield hunknown, Option.map_some, Option.getD_some, ht] at hfile
    exact hother (Option.some.inj hfile)
  · exact fun hvalue file => fact?_of_carries hfield hcarries hvalue strings file
  · rw [fact?_of_unknown hfield hunknown]
    cases field <;> rfl
  · intro file document told hreads
    rw [fact?_of_unknown hfield hunknown, Option.map_some, Option.getD_some, read_of_reads hreads]
    constructor
    · intro t hgives
      rw [(hreads.get_eq_some_iff field).mpr hgives, Option.getD_some]
    · intro hnone
      have hget : field.get told = none := Option.eq_none_iff_forall_ne_some.mpr fun t ht =>
        hnone t ((hreads.get_eq_some_iff field).mp ht)
      rw [hget, Option.getD_none]
  · exact info_of_silent (read_of_not_reads hfile)

theorem info_precedence_platform :
    (info "<uses-sdk android:minSdkVersion=\"24\"/>" none (some filledFile)).facts.minSdk = "24" ∧
    (info "<uses-sdk android:minSdkVersion=\"24\"/>" none none).facts.targetSdk = unknown := by
  have hmin : Field.minSdk.Carries "<uses-sdk android:minSdkVersion=\"24\"/>" "24" :=
    Field.stated?_eq_some_iff.mp (by decide +kernel)
  have htarget (value : String) :
      ¬Field.targetSdk.Carries "<uses-sdk android:minSdkVersion=\"24\"/>" value := by
    have hnone : Field.targetSdk.stated? "<uses-sdk android:minSdkVersion=\"24\"/>" = none := by
      decide +kernel
    simp [← Field.stated?_eq_some_iff, hnone]
  have hreported :=
    ((info_precedence (by decide : Field.minSdk ≠ .version) _ none).1 _ hmin).mpr (by decide)
  have hunknown := (info_precedence (by decide : Field.targetSdk ≠ .version) _ none).2.1
    fun value hvalue => absurd hvalue (htarget value)
  exact ⟨Option.some.inj (hreported (some filledFile)), Option.some.inj hunknown.1⟩

set_option maxRecDepth 10000 in
/-- A version that is named as the word for unknown is replaced by the one in the file. -/
theorem unknown_version_replaced :
    Field.versionName.Carries "<manifest android:versionName=\"unknown\">" unknown ∧
    Field.versionName.fact? (info "<manifest android:versionName=\"unknown\">" none
      (some "versionInfo:\n  versionName: 1.0.1\n")) = some "1.0.1" :=
  ⟨Field.stated?_eq_some_iff.mp (by decide +kernel), by decide +kernel⟩

end SdkEvidence.Manifest
