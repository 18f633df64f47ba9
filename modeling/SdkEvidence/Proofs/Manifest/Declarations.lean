import Mathlib.Data.Prod.Lex
import Mathlib.Order.Lattice
import SdkEvidence.Manifest.Info
import SdkEvidence.Proofs.Manifest.Tag
import SdkEvidence.Proofs.Repetition

/-!
# Declared permissions and features

In a manifest made of declarations and of text between them that opens none, the tags of a kind are
just the declarations of that kind (`bodies_permissionTag`, `bodies_featureTag`): a bracket stands
only where a declaration begins, so none begins within another or runs into the next. So the
permissions and the features are those that are declared, each once and in order, whatever the order
and the repetition of the declarations (`info_declarations`).
-/
namespace SdkEvidence

/-- What features are ordered by; of one name the optional one comes first. -/
def HardwareFeature.key (feature : HardwareFeature) : String ×ₗ Bool :=
  toLex (feature.name, feature.required)

namespace Manifest

/-! ## Manifests that are written -/

/-- The kinds of elements that declare something. -/
inductive DeclarationKind where
  | permission
  | permissionSdk23
  | feature
  deriving DecidableEq

namespace DeclarationKind

/-- How an element of a kind opens. -/
def opening : DeclarationKind → List Char
  | permission => "<uses-permission".toList
  | permissionSdk23 => "<uses-permission-sdk-23".toList
  | feature => "<uses-feature".toList

/-- Whether elements of a kind declare permissions. -/
def isPermission (kind : DeclarationKind) : Bool :=
  kind != feature

end DeclarationKind

/-- An element without content that declares something by its attributes, none of which is
repeated. -/
structure Declaration where
  kind : DeclarationKind
  attributes : List WrittenAttribute
  blanks : List Char
  distinct : (attributes.map WrittenAttribute.name).Nodup
  blank : ∀ c ∈ blanks, Text.isBlank c = true

namespace Declaration

/-- What stands in an element between its name and its end. -/
def body (d : Declaration) : List Char :=
  d.attributes.flatMap WrittenAttribute.text ++ (d.blanks ++ ['/'])

/-- The text of an element. -/
def text (d : Declaration) : List Char :=
  d.kind.opening ++ d.body ++ ['>']

/-- An element gives a value to an attribute. -/
def Says (d : Declaration) (name value : String) : Prop :=
  ∃ a ∈ d.attributes, String.ofList a.name = name ∧ String.ofList a.value = value

end Declaration

/-- A text in which no declaration opens. -/
structure Interlude where
  text : List Char
  noPermission : ¬"<uses-permission".toList <:+: text
  noFeature : ¬"<uses-feature".toList <:+: text

/-- A manifest as it is written: declarations, each behind another text, and a text at the end. -/
structure WrittenManifest where
  parts : List (Interlude × Declaration)
  last : Interlude

namespace WrittenManifest

/-- The text of a manifest. -/
def text (m : WrittenManifest) : List Char :=
  m.parts.flatMap (fun part => part.1.text ++ part.2.text) ++ m.last.text

/-- The declarations of a manifest. -/
def declarations (m : WrittenManifest) : List Declaration :=
  m.parts.map Prod.snd

end WrittenManifest

/-! ## Declarations among other text -/

/-- The openings of tags have a bracket in front and no other. -/
theorem opening_cases (opening : List Char)
    (h : opening ∈ (permissionTag ++ featureTag).map String.toList) :
    ∃ more, opening = '<' :: more ∧ '<' ∉ more ∧
      ("<uses-permission".toList <+: opening ∨ "<uses-feature".toList <+: opening) := by
  have hopenings : ((permissionTag ++ featureTag).map String.toList).Forall fun opening =>
      opening.head? = some '<' ∧ '<' ∉ opening.tail ∧
        ("<uses-permission".toList <+: opening ∨ "<uses-feature".toList <+: opening) := by
    decide
  obtain ⟨hhead, htail, hstart⟩ := List.forall_iff_forall_mem.mp hopenings opening h
  obtain ⟨more, rfl⟩ := List.head?_eq_some_iff.mp hhead
  exact ⟨more, rfl, htail, hstart⟩

/-- No tag opens in front of another one, or of the end, unless it does so within the text. -/
theorem not_opening_prefix_append {opening more part rest : List Char}
    (hopening : opening = '<' :: more) (hmore : '<' ∉ more) (hpart : part ≠ [])
    (hwithin : ¬opening <+: part) (hrest : rest = [] ∨ rest.head? = some '<') :
    ¬opening <+: part ++ rest := by
  intro hprefix
  rcases List.prefix_or_prefix_of_prefix hprefix (List.prefix_append part rest) with h | ⟨more', h⟩
  · exact hwithin h
  · -- what reaches beyond the part would hold the bracket behind it
    rw [← h, List.prefix_append_right_inj] at hprefix
    cases more' with
    | nil => exact hwithin (by rw [← h, List.append_nil])
    | cons c more' =>
      obtain ⟨last, rfl⟩ := hprefix
      obtain ⟨d, part, rfl⟩ := List.exists_cons_of_ne_nil hpart
      rw [hopening, List.cons_append, List.cons.injEq] at h
      have hc : c = '<' := by simpa using hrest
      rw [← h.2, hc] at hmore
      simp at hmore

/-- Between declarations no tag opens. -/
theorem Interlude.tagAt?_eq_none (gap : Interlude) {tag : List String}
    (htag : tag ⊆ permissionTag ++ featureTag) {part rest : List Char} (hpart : part ≠ [])
    (hsuffix : part <:+ gap.text) (hrest : rest = [] ∨ rest.head? = some '<') :
    tagAt? (part ++ rest) (tag.map String.toList) = none := by
  refine Manifest.tagAt?_eq_none fun opening hopening => ?_
  obtain ⟨more, hbracket, hmore, hstart⟩ := opening_cases _ (List.map_subset _ htag hopening)
  refine not_opening_prefix_append hbracket hmore hpart (fun hprefix => ?_) hrest
  have hinfix : opening <:+: gap.text := hprefix.isInfix.trans hsuffix.isInfix
  rcases hstart with h | h
  · exact gap.noPermission (h.isInfix.trans hinfix)
  · exact gap.noFeature (h.isInfix.trans hinfix)

theorem Interlude.bodiesFrom_eq (gap : Interlude) {tag : List String}
    (htag : tag ⊆ permissionTag ++ featureTag) (rest : List Char)
    (hrest : rest = [] ∨ rest.head? = some '<') :
    bodiesFrom (tag.map String.toList) 0 (gap.text ++ rest)
      = bodiesFrom (tag.map String.toList) 0 rest :=
  bodiesFrom_pass fun _ hpart hsuffix => gap.tagAt?_eq_none htag hpart hsuffix hrest

/-! ## Declarations -/

namespace Declaration

theorem bracket_notMem_body (d : Declaration) {bracket : Char}
    (h : bracket = '<' ∨ bracket = '>') : bracket ∉ d.body := by
  have hblank : Text.isBlank bracket = false := by rcases h with rfl | rfl <;> decide
  have hname : isAttributeChar bracket = false := by rcases h with rfl | rfl <;> decide +kernel
  have hmarks : bracket ≠ '=' ∧ bracket ≠ '"' ∧ bracket ≠ '/' := by
    rcases h with rfl | rfl <;> decide
  have hnot {p : Char → Bool} {part : List Char} (hpart : ∀ c ∈ part, p c = true)
      (hp : p bracket = false) : bracket ∉ part := by
    intro hmem
    rw [hpart bracket hmem] at hp
    cases hp
  have hattribute (a : WrittenAttribute) : bracket ∉ a.text := by
    have hvalue : bracket ∉ a.value := by
      rcases h with rfl | rfl
      · exact a.quotable.2.1
      · exact a.quotable.2.2
    simp [WrittenAttribute.text, hnot a.apart.2 hblank, hnot a.named.2 hname, hvalue, hmarks]
  simp [body, hattribute, hnot d.blank hblank, hmarks]

/-- Behind the name of an element stands a blank or the mark of its end. -/
theorem exists_body_cons (d : Declaration) :
    ∃ c rest, d.body = c :: rest ∧ (Text.isBlank c = true ∨ c = '/') := by
  rw [body]
  cases hattributes : d.attributes with
  | nil =>
    cases hblanks : d.blanks with
    | nil => exact ⟨'/', [], rfl, Or.inr rfl⟩
    | cons c more => exact ⟨c, more ++ ['/'], rfl, Or.inl (d.blank c (by simp [hblanks]))⟩
  | cons a more =>
    obtain ⟨c, blanks, hblanks⟩ := List.exists_cons_of_ne_nil a.apart.1
    refine ⟨c, _, by rw [List.flatMap_cons, WrittenAttribute.text, hblanks]; rfl, Or.inl ?_⟩
    exact a.apart.2 c (by simp [hblanks])

theorem atWordEnd_body (d : Declaration) : atWordEnd (d.body ++ ['>']) = true := by
  obtain ⟨c, rest, hbody, hc⟩ := d.exists_body_cons
  have hword : Text.isWord c = false := by
    rcases hc with hc | rfl
    · exact isWord_of_isBlank hc
    · decide +kernel
  rw [hbody, List.cons_append, atWordEnd, hword]
  rfl

/-- A tag reads a declaration of its kind to the end. -/
theorem tagAt?_text (d : Declaration) (rest : List Char) (tag : List String)
    (before after : List (List Char))
    (htag : tag.map String.toList = before ++ d.kind.opening :: after)
    (hbefore : ∀ other ∈ before, ¬other <+: d.kind.opening ++ d.body ++ '>' :: rest) :
    tagAt? (d.text ++ rest) (tag.map String.toList) = some (d.body, d.text.length) := by
  have htext : d.text ++ rest = d.kind.opening ++ d.body ++ '>' :: rest := by simp [text]
  rw [htag, htext]
  exact tagAt?_opening (d.bracket_notMem_body (Or.inr rfl)) d.atWordEnd_body rest hbefore

theorem exists_opening_cons (d : Declaration) :
    ∃ name, d.kind.opening = '<' :: name ∧ '<' ∉ name := by
  obtain ⟨name, hname, hbracket, -⟩ := opening_cases d.kind.opening
    (by cases d.kind <;> decide)
  exact ⟨name, hname, hbracket⟩

/-- No tag of another kind opens in a declaration. -/
theorem tagAt?_eq_none (d : Declaration) {tag : List String}
    (htag : tag ⊆ permissionTag ++ featureTag)
    (hother : ∀ opening ∈ tag.map String.toList,
      ¬opening <+: d.kind.opening ∧ ¬d.kind.opening <+: opening)
    {part : List Char} (hpart : part ≠ []) (hsuffix : part <:+ d.text) (rest : List Char) :
    tagAt? (part ++ rest) (tag.map String.toList) = none := by
  obtain ⟨name, hname, hbracket⟩ := d.exists_opening_cons
  refine Manifest.tagAt?_eq_none fun opening hopening hprefix => ?_
  obtain ⟨more, hmore, -, -⟩ := opening_cases _ (List.map_subset _ htag hopening)
  have htext : d.text = '<' :: (name ++ d.body ++ ['>']) := by simp [text, hname]
  rw [htext, List.suffix_cons_iff] at hsuffix
  rcases hsuffix with rfl | hsuffix
  · -- the element itself opens with another name
    have hopens : d.kind.opening <+: '<' :: (name ++ d.body ++ ['>']) ++ rest := by
      rw [hname]
      exact ⟨d.body ++ ['>'] ++ rest, by simp⟩
    rcases List.prefix_or_prefix_of_prefix hprefix hopens with h | h
    · exact (hother opening hopening).1 h
    · exact (hother opening hopening).2 h
  · -- behind its bracket there is no other
    obtain ⟨c, part, rfl⟩ := List.exists_cons_of_ne_nil hpart
    rw [hmore, List.cons_append, List.cons_prefix_cons] at hprefix
    obtain ⟨hc, -⟩ := hprefix
    have hmem : '<' ∈ name ++ d.body ++ ['>'] := by
      rw [hc]
      exact hsuffix.mem List.mem_cons_self
    simp [hbracket, d.bracket_notMem_body (Or.inl rfl)] at hmem

theorem bodiesFrom_other (d : Declaration) {tag : List String}
    (htag : tag ⊆ permissionTag ++ featureTag)
    (hother : ∀ opening ∈ tag.map String.toList,
      ¬opening <+: d.kind.opening ∧ ¬d.kind.opening <+: opening) (rest : List Char) :
    bodiesFrom (tag.map String.toList) 0 (d.text ++ rest)
      = bodiesFrom (tag.map String.toList) 0 rest :=
  bodiesFrom_pass fun _ hpart hsuffix => d.tagAt?_eq_none htag hother hpart hsuffix rest

theorem bodiesFrom_permissionTag (d : Declaration) (rest : List Char) :
    bodiesFrom (permissionTag.map String.toList) 0 (d.text ++ rest)
      = (if d.kind.isPermission then [d.body] else [])
          ++ bodiesFrom (permissionTag.map String.toList) 0 rest := by
  have htext : d.text ≠ [] := by simp [text]
  have htag : permissionTag.map String.toList
      = [DeclarationKind.permissionSdk23.opening, DeclarationKind.permission.opening] := rfl
  cases hkind : d.kind with
  | permission =>
    obtain ⟨c, more, hbody, hc⟩ := d.exists_body_cons
    -- the longer name would go on with a hyphen
    have hhyphen : '-' ≠ c := by
      rintro rfl
      rcases hc with hc | hc <;> revert hc <;> decide
    have hlonger : ∀ other ∈ [DeclarationKind.permissionSdk23.opening],
        ¬other <+: d.kind.opening ++ d.body ++ '>' :: rest := by
      have hparts : DeclarationKind.permissionSdk23.opening
          = DeclarationKind.permission.opening ++ '-' :: "sdk-23".toList := by decide
      intro other hother
      rw [List.mem_singleton.mp hother, hkind, hparts, List.append_assoc,
        List.prefix_append_right_inj, hbody, List.cons_append, List.cons_prefix_cons]
      exact fun h => hhyphen h.1
    have htaken := d.tagAt?_text rest permissionTag _ []
      (by rw [htag, hkind]; rfl) hlonger
    exact bodiesFrom_tag htext rest htaken
  | permissionSdk23 =>
    have htaken := d.tagAt?_text rest permissionTag [] _
      (by rw [htag, hkind]; rfl) (by simp)
    exact bodiesFrom_tag htext rest htaken
  | feature =>
    exact d.bodiesFrom_other (by decide) (by rw [hkind]; decide) rest

theorem bodiesFrom_featureTag (d : Declaration) (rest : List Char) :
    bodiesFrom (featureTag.map String.toList) 0 (d.text ++ rest)
      = (if d.kind.isPermission then [] else [d.body])
          ++ bodiesFrom (featureTag.map String.toList) 0 rest := by
  have htext : d.text ≠ [] := by simp [text]
  have htag : featureTag.map String.toList = [DeclarationKind.feature.opening] := rfl
  cases hkind : d.kind with
  | permission => exact d.bodiesFrom_other (by decide) (by rw [hkind]; decide) rest
  | permissionSdk23 => exact d.bodiesFrom_other (by decide) (by rw [hkind]; decide) rest
  | feature =>
    have htaken := d.tagAt?_text rest featureTag [] _
      (by rw [htag, hkind]; rfl) (by simp)
    exact bodiesFrom_tag htext rest htaken

/-- The attributes of a declaration are read as it says them. -/
theorem valueOf?_body_eq_some_iff (d : Declaration) {name value : String} :
    valueOf? (Manifest.attributes d.body) name = some value ↔ d.Says name value := by
  have hend : ∀ c ∈ d.blanks ++ ['/'], isAttributeChar c = false := by
    have hslash : isAttributeChar '/' = false := by decide +kernel
    intro c hc
    rcases List.mem_append.mp hc with hc | hc
    · exact isAttributeChar_of_isBlank (d.blank c hc)
    · rwa [List.mem_singleton.mp hc]
  have hdistinct : ((d.attributes.map WrittenAttribute.toAttribute).map Prod.fst).Nodup := by
    have hnames := d.distinct.map (f := String.ofList) fun a b heq => by
      simpa using congrArg String.toList heq
    rwa [List.map_map] at hnames ⊢
  rw [body, attributes_written _ hend, valueOf?_eq_some_iff hdistinct, List.mem_map]
  simp [Says, WrittenAttribute.toAttribute]

end Declaration

/-! ## Manifests -/

namespace WrittenManifest

/-- What holds of a tag that takes some declarations and passes over the others, for a manifest. -/
theorem bodies_eq (m : WrittenManifest) {tag : List String} {taken : Declaration → List (List Char)}
    (htag : tag ⊆ permissionTag ++ featureTag)
    (h : ∀ (d : Declaration) (rest : List Char),
      bodiesFrom (tag.map String.toList) 0 (d.text ++ rest)
        = taken d ++ bodiesFrom (tag.map String.toList) 0 rest) :
    bodies tag m.text = m.declarations.flatMap taken := by
  have hlast : bodiesFrom (tag.map String.toList) 0 m.last.text = [] := by
    have hend := m.last.bodiesFrom_eq htag [] (Or.inl rfl)
    rwa [List.append_nil] at hend
  rw [bodies, text, declarations]
  induction m.parts with
  | nil => exact hlast
  | cons part parts ih =>
    obtain ⟨gap, d⟩ := part
    have hbracket (rest : List Char) : (d.text ++ rest).head? = some '<' := by
      obtain ⟨name, hname, -⟩ := d.exists_opening_cons
      simp [Declaration.text, hname]
    rw [List.flatMap_cons, List.append_assoc, List.append_assoc,
      gap.bodiesFrom_eq htag _ (Or.inr (hbracket _)), h, ih, List.map_cons, List.flatMap_cons]

/-- The tags of permissions are the declarations of permissions. -/
theorem mem_bodies_permissionTag {m : WrittenManifest} {body : List Char} :
    body ∈ bodies permissionTag m.text
      ↔ ∃ d ∈ m.declarations, d.kind.isPermission = true ∧ d.body = body := by
  rw [m.bodies_eq (List.subset_append_left _ _) Declaration.bodiesFrom_permissionTag,
    List.mem_flatMap]
  refine exists_congr fun d => and_congr_right fun _ => ?_
  cases d.kind.isPermission <;> simp [eq_comm]

/-- The tags of features are the other declarations. -/
theorem mem_bodies_featureTag {m : WrittenManifest} {body : List Char} :
    body ∈ bodies featureTag m.text
      ↔ ∃ d ∈ m.declarations, d.kind.isPermission = false ∧ d.body = body := by
  rw [m.bodies_eq (List.subset_append_right _ _) Declaration.bodiesFrom_featureTag,
    List.mem_flatMap]
  refine exists_congr fun d => and_congr_right fun _ => ?_
  cases d.kind.isPermission <;> simp [eq_comm]

end WrittenManifest

theorem mem_permissions {m : WrittenManifest} {name : String} : name ∈ permissions m.text
    ↔ ∃ d ∈ m.declarations, d.kind.isPermission = true ∧ d.Says "android:name" name := by
  simp only [permissions, mem_sortedDistinct, List.mem_filterMap,
    WrittenManifest.mem_bodies_permissionTag]
  constructor
  · rintro ⟨body, ⟨d, hd, hkind, rfl⟩, hname⟩
    exact ⟨d, hd, hkind, d.valueOf?_body_eq_some_iff.mp hname⟩
  · rintro ⟨d, hd, hkind, hname⟩
    exact ⟨d.body, ⟨d, hd, hkind, rfl⟩, d.valueOf?_body_eq_some_iff.mpr hname⟩

theorem feature?_body_eq_some_iff {d : Declaration} {feature : HardwareFeature} :
    feature? d.body = some feature ↔ d.Says "android:name" feature.name ∧
      (feature.required = false ↔ d.Says "android:required" "false") := by
  rw [feature?, Option.map_eq_some_iff, ← d.valueOf?_body_eq_some_iff,
    ← d.valueOf?_body_eq_some_iff]
  obtain ⟨name, required⟩ := feature
  simp only [HardwareFeature.mk.injEq]
  constructor
  · rintro ⟨given, hgiven, rfl, rfl⟩
    exact ⟨hgiven, bne_eq_false_iff_eq⟩
  · rintro ⟨hname, hrequired⟩
    refine ⟨name, hname, rfl, ?_⟩
    rw [Bool.eq_iff_iff, ← not_iff_not, Bool.not_eq_true, Bool.not_eq_true, bne_eq_false_iff_eq]
    exact hrequired.symm

theorem mem_features {m : WrittenManifest} {feature : HardwareFeature} :
    feature ∈ features m.text ↔ ∃ d ∈ m.declarations, d.kind.isPermission = false ∧
      d.Says "android:name" feature.name ∧
      (feature.required = false ↔ d.Says "android:required" "false") := by
  simp only [features, mem_eraseReps, List.mem_mergeSort, List.mem_filterMap,
    WrittenManifest.mem_bodies_featureTag]
  constructor
  · rintro ⟨body, ⟨d, hd, hkind, rfl⟩, hfeature⟩
    exact ⟨d, hd, hkind, feature?_body_eq_some_iff.mp hfeature⟩
  · rintro ⟨d, hd, hkind, hfeature⟩
    exact ⟨d.body, ⟨d, hd, hkind, rfl⟩, feature?_body_eq_some_iff.mpr hfeature⟩

/-! ## Order -/

theorem le_iff_key_le (a b : HardwareFeature) : a.le b = true ↔ a.key ≤ b.key := by
  obtain ⟨name, required⟩ := a
  obtain ⟨other, required'⟩ := b
  rw [HardwareFeature.le, HardwareFeature.key, HardwareFeature.key, Prod.Lex.toLex_le_toLex']
  by_cases hname : name = other
  · cases required <;> cases required' <;> simp [hname]
  · simp [hname]

theorem key_injective : Function.Injective HardwareFeature.key := by
  rintro ⟨name, required⟩ ⟨other, required'⟩ h
  simpa [HardwareFeature.key] using h

theorem permissions_increasing (text : List Char) : (permissions text).Pairwise (· < ·) :=
  sortedDistinct_increasing _

theorem features_increasing (text : List Char) :
    (features text).Pairwise fun a b => a.key < b.key := by
  let _ : LinearOrder HardwareFeature := LinearOrder.lift' HardwareFeature.key key_injective
  refine eraseReps_increasing (List.Pairwise.imp (fun h => (le_iff_key_le _ _).mp h)
    (List.pairwise_mergeSort (fun a b c hab hbc => ?_) (fun a b => ?_) _))
  · rw [le_iff_key_le] at hab hbc ⊢
    exact hab.trans hbc
  · rw [Bool.or_eq_true, le_iff_key_le, le_iff_key_le]
    exact le_total _ _

/-- The permissions of a manifest are the names of the elements that declare one, and its features
are the names of the others with what they say of being required, each once and in order, whatever
text stands between the elements. Manifests with the same elements, in any order and however often
repeated, declare the same. -/
theorem info_declarations (m : WrittenManifest) (strings apktoolFile : Option String) :
    (info (String.ofList m.text) strings apktoolFile).permissions.Pairwise (· < ·) ∧
    (∀ name, name ∈ (info (String.ofList m.text) strings apktoolFile).permissions
      ↔ ∃ d ∈ m.declarations, (d.kind = .permission ∨ d.kind = .permissionSdk23) ∧
          d.Says "android:name" name) ∧
    ((info (String.ofList m.text) strings apktoolFile).features.Pairwise
      fun a b => toLex (a.name, a.required) < toLex (b.name, b.required)) ∧
    (∀ feature, feature ∈ (info (String.ofList m.text) strings apktoolFile).features
      ↔ ∃ d ∈ m.declarations, d.kind = .feature ∧ d.Says "android:name" feature.name ∧
          (feature.required = false ↔ d.Says "android:required" "false")) ∧
    ∀ other : WrittenManifest, (∀ d, d ∈ other.declarations ↔ d ∈ m.declarations) →
      (info (String.ofList other.text) strings apktoolFile).permissions
          = (info (String.ofList m.text) strings apktoolFile).permissions ∧
        (info (String.ofList other.text) strings apktoolFile).features
          = (info (String.ofList m.text) strings apktoolFile).features := by
  have hpermissions (m : WrittenManifest) :
      (info (String.ofList m.text) strings apktoolFile).permissions = permissions m.text := by
    rw [info, String.toList_ofList]
  have hfeatures (m : WrittenManifest) :
      (info (String.ofList m.text) strings apktoolFile).features = features m.text := by
    rw [info, String.toList_ofList]
  have hkind (kind : DeclarationKind) :
      (kind = .permission ∨ kind = .permissionSdk23 ↔ kind.isPermission = true) ∧
        (kind = .feature ↔ kind.isPermission = false) := by
    cases kind <;> decide
  simp only [hpermissions, hfeatures, (hkind _).1, (hkind _).2]
  refine ⟨permissions_increasing _, fun _ => mem_permissions, features_increasing _,
    fun _ => mem_features, fun other hsame => ⟨?_, ?_⟩⟩
  · refine (permissions_increasing _).eq_of_mem_iff (permissions_increasing _) fun name => ?_
    simp only [mem_permissions, hsame]
  · have : Std.Irrefl fun a b : HardwareFeature => a.key < b.key := ⟨fun a => lt_irrefl a.key⟩
    refine (features_increasing _).eq_of_mem_iff (features_increasing _) fun feature => ?_
    simp only [mem_features, hsame]

/-- A bracket before an element, an element without attributes, and an equals sign in a value. -/
example : (bodies permissionTag
    "<<uses-permission-sdk-23\ta=\"b=c\" /> <uses-permission/>".toList).map attributes =
      [[("a", "b=c")], []] := by
  decide +kernel

end Manifest
end SdkEvidence
