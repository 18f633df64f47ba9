import Mathlib.Data.Bool.AllAny
import Mathlib.Data.List.Infix
import SdkEvidence.Manifest.Tag
import SdkEvidence.Proofs.Repetition

/-!
# Attributes and tags as they are written

Attributes that are written one after another, each behind blanks, are read as they stand
(`attributes_written`), and where no name is repeated each has its value (`valueOf?_eq_some_iff`). A
tag is read where it opens (`tagAt?_opening`), and no tag opens where none of the openings stands
(`tagAt?_eq_none`, `bodiesFrom_pass`).
-/
namespace SdkEvidence.Manifest

/-! ## Characters -/

/-- No blank belongs to words. -/
theorem isWord_of_isBlank {c : Char} (h : Text.isBlank c = true) : Text.isWord c = false := by
  have hblanks : ∀ n ∈ [9, 10, 11, 12, 13, 0x20, 0x85, 0xA0, 0x1680, 0x2000, 0x2001, 0x2002, 0x2003,
      0x2004, 0x2005, 0x2006, 0x2007, 0x2008, 0x2009, 0x200A, 0x2028, 0x2029, 0x202F, 0x205F,
      0x3000], Text.inIntervals n Text.wordIntervals = false := by
    decide +kernel
  refine hblanks c.toNat ?_
  simp only [Text.isBlank, Bool.or_eq_true, Bool.and_eq_true, decide_eq_true_eq, beq_iff_eq] at h
  simp only [List.mem_cons, List.not_mem_nil, or_false]
  omega

theorem isAttributeChar_of_isBlank {c : Char} (h : Text.isBlank c = true) :
    isAttributeChar c = false := by
  have hmarks : ∀ mark ∈ [':', '.', '-'], Text.isBlank mark = false :=
    List.all_iff_forall_prop.mp (by decide)
  have hne (mark : Char) (hmark : mark ∈ [':', '.', '-']) : (c == mark) = false := by
    rw [beq_eq_false_iff_ne]
    rintro rfl
    rw [hmarks c hmark] at h
    cases h
  rw [isAttributeChar, isWord_of_isBlank h, hne ':' (by decide), hne '.' (by decide),
    hne '-' (by decide)]
  rfl

/-! ## Attributes -/

/-- An attribute as it is written: behind blanks, a name, an equals sign and a quoted value in which
no tag begins or ends. -/
structure WrittenAttribute where
  blanks : List Char
  name : List Char
  value : List Char
  apart : blanks ≠ [] ∧ ∀ c ∈ blanks, Text.isBlank c = true
  named : name ≠ [] ∧ ∀ c ∈ name, isAttributeChar c = true
  quotable : '"' ∉ value ∧ '<' ∉ value ∧ '>' ∉ value

namespace WrittenAttribute

/-- The text of an attribute. -/
def text (a : WrittenAttribute) : List Char :=
  a.blanks ++ a.name ++ '=' :: '"' :: a.value ++ ['"']

/-- The attribute itself. -/
def toAttribute (a : WrittenAttribute) : Attribute :=
  (String.ofList a.name, String.ofList a.value)

end WrittenAttribute

theorem attributesFrom_skip (skip : ℕ) (text : List Char) :
    attributesFrom skip text = attributesFrom 0 (text.drop skip) := by
  induction text generalizing skip with
  | nil => simp [attributesFrom]
  | cons c rest ih =>
    cases skip with
    | zero => rfl
    | succ skip => exact ih skip

theorem attributesFrom_pass {front : List Char} (h : ∀ c ∈ front, isAttributeChar c = false)
    (rest : List Char) : attributesFrom 0 (front ++ rest) = attributesFrom 0 rest := by
  induction front with
  | nil => rfl
  | cons c front ih =>
    obtain ⟨hc, hfront⟩ := List.forall_mem_cons.mp h
    rw [List.cons_append, attributesFrom, List.takeWhile_cons_of_neg (by simp [hc])]
    exact ih hfront

theorem takeWhile_append_cons {p : Char → Bool} {front : List Char} {c : Char}
    (h : ∀ d ∈ front, p d = true) (hc : p c = false) (rest : List Char) :
    (front ++ c :: rest).takeWhile p = front := by
  rw [List.takeWhile_append_of_pos h, List.takeWhile_cons_of_neg (by simp [hc]), List.append_nil]

theorem valueAfter?_quoted {value : List Char} (h : '"' ∉ value) (rest : List Char) :
    valueAfter? ('=' :: '"' :: value ++ '"' :: rest) = some (value, value.length + 3) := by
  have hvalue : (value ++ '"' :: rest).takeWhile (· != '"') = value :=
    takeWhile_append_cons (fun c hc => by simpa using ne_of_mem_of_not_mem hc h) (by decide) rest
  simp [valueAfter?, Text.isBlank, hvalue]

/-- A name that a value follows is an attribute. -/
theorem attributesFrom_named {name tail value : List Char} {width : ℕ} (hname : name ≠ [])
    (htaken : (name ++ tail).takeWhile isAttributeChar = name)
    (hvalue : valueAfter? tail = some (value, width)) :
    attributesFrom 0 (name ++ tail)
      = (String.ofList name, String.ofList value) :: attributesFrom 0 (tail.drop width) := by
  obtain ⟨c, more, rfl⟩ := List.exists_cons_of_ne_nil hname
  rw [List.cons_append] at htaken ⊢
  rw [attributesFrom, htaken]
  simp only [List.isEmpty_cons, Bool.false_eq_true, if_false, ← List.cons_append, List.drop_left,
    hvalue]
  have hwidth : (c :: more).length + width - 1 = more.length + width := by
    rw [List.length_cons]
    omega
  rw [attributesFrom_skip, hwidth, ← List.drop_drop, List.drop_left]

theorem attributesFrom_written (a : WrittenAttribute) (rest : List Char) :
    attributesFrom 0 (a.text ++ rest) = a.toAttribute :: attributesFrom 0 rest := by
  have hblanks : ∀ c ∈ a.blanks, isAttributeChar c = false := fun c hc =>
    isAttributeChar_of_isBlank (a.apart.2 c hc)
  have htext : a.text ++ rest
      = a.blanks ++ (a.name ++ ('=' :: '"' :: a.value ++ '"' :: rest)) := by
    simp [WrittenAttribute.text]
  have htaken : (a.name ++ ('=' :: '"' :: a.value ++ '"' :: rest)).takeWhile isAttributeChar
      = a.name :=
    takeWhile_append_cons a.named.2 (by decide +kernel) _
  have hrest : ('=' :: '"' :: a.value ++ '"' :: rest).drop (a.value.length + 3) = rest := by
    rw [List.append_cons, List.drop_left' (by simp)]
  rw [htext, attributesFrom_pass hblanks,
    attributesFrom_named a.named.1 htaken (valueAfter?_quoted a.quotable.1 rest), hrest]
  rfl

/-- Attributes are read as they are written, whatever follows the last of them. -/
theorem attributes_written (written : List WrittenAttribute) {rest : List Char}
    (h : ∀ c ∈ rest, isAttributeChar c = false) :
    attributes (written.flatMap WrittenAttribute.text ++ rest)
      = written.map WrittenAttribute.toAttribute := by
  induction written with
  | nil => simpa [attributes, attributesFrom] using attributesFrom_pass h []
  | cons a more ih =>
    rw [List.flatMap_cons, List.append_assoc, attributes, attributesFrom_written, List.map_cons]
    exact congrArg _ ih

/-- Where no name is repeated every attribute counts. -/
theorem valueOf?_eq_some_iff {attributes : List Attribute} (h : (attributes.map Prod.fst).Nodup)
    {name value : String} :
    valueOf? attributes name = some value ↔ (name, value) ∈ attributes :=
  lookup_reverse_eq_some_iff_mem h

/-! ## Tags -/

theorem bodiesFrom_skip (openings : List (List Char)) (skip : ℕ) (text : List Char) :
    bodiesFrom openings skip text = bodiesFrom openings 0 (text.drop skip) := by
  induction text generalizing skip with
  | nil => simp [bodiesFrom]
  | cons c rest ih =>
    cases skip with
    | zero => rfl
    | succ skip => exact ih skip

theorem tagAt?_eq_none {openings : List (List Char)} {text : List Char}
    (h : ∀ opening ∈ openings, ¬opening <+: text) : tagAt? text openings = none := by
  induction openings with
  | nil => rfl
  | cons opening others ih =>
    obtain ⟨hopening, hothers⟩ := List.forall_mem_cons.mp h
    rw [tagAt?, Text.dropLead?, if_neg (List.isPrefixOf_iff_prefix.not.mpr hopening)]
    exact ih hothers

/-- Text is passed over in which no tag opens. -/
theorem bodiesFrom_pass {openings : List (List Char)} {front rest : List Char}
    (h : ∀ part, part ≠ [] → part <:+ front → tagAt? (part ++ rest) openings = none) :
    bodiesFrom openings 0 (front ++ rest) = bodiesFrom openings 0 rest := by
  induction front with
  | nil => rfl
  | cons c front ih =>
    have hhere := h (c :: front) (List.cons_ne_nil _ _) (List.suffix_refl _)
    rw [List.cons_append] at hhere ⊢
    rw [bodiesFrom, hhere]
    exact ih fun part hpart hsuffix => h part hpart (hsuffix.trans (List.suffix_cons _ _))

theorem bodyBeforeClose?_append {body : List Char} (h : '>' ∉ body) (rest : List Char) :
    bodyBeforeClose? (body ++ '>' :: rest) = some body := by
  have hbody : (body ++ '>' :: rest).takeWhile (· != '>') = body :=
    takeWhile_append_cons (fun c hc => by simpa using ne_of_mem_of_not_mem hc h) (by decide) rest
  simp [bodyBeforeClose?, hbody]

/-- A tag is read where its opening stands and no earlier one of the openings does. -/
theorem tagAt?_opening {opening body : List Char} (hbody : '>' ∉ body)
    (hend : atWordEnd (body ++ ['>']) = true) (rest : List Char) {before after : List (List Char)}
    (hbefore : ∀ other ∈ before, ¬other <+: opening ++ body ++ '>' :: rest) :
    tagAt? (opening ++ body ++ '>' :: rest) (before ++ opening :: after)
      = some (body, (opening ++ body ++ ['>']).length) := by
  induction before with
  | nil =>
    have hword : atWordEnd (body ++ '>' :: rest) = true := by
      cases body <;> exact hend
    rw [List.append_assoc, List.nil_append, tagAt?, Text.dropLead?,
      if_pos (List.isPrefixOf_iff_prefix.mpr (List.prefix_append _ _)), List.drop_left]
    simp only [hword, if_true, bodyBeforeClose?_append hbody, Option.map_some]
    simp [Nat.add_assoc]
  | cons other before ih =>
    obtain ⟨hother, hbefore⟩ := List.forall_mem_cons.mp hbefore
    rw [List.cons_append, tagAt?, Text.dropLead?,
      if_neg (List.isPrefixOf_iff_prefix.not.mpr hother)]
    exact ih hbefore

/-- The body of a tag is read and the reading goes on behind the tag. -/
theorem bodiesFrom_tag {openings : List (List Char)} {tag body : List Char} (htag : tag ≠ [])
    (rest : List Char) (h : tagAt? (tag ++ rest) openings = some (body, tag.length)) :
    bodiesFrom openings 0 (tag ++ rest) = body :: bodiesFrom openings 0 rest := by
  obtain ⟨c, more, rfl⟩ := List.exists_cons_of_ne_nil htag
  rw [List.cons_append] at h ⊢
  rw [bodiesFrom, h]
  have hlength : (c :: more).length - 1 = more.length := by simp
  simp only [hlength]
  rw [bodiesFrom_skip, List.drop_left]

end SdkEvidence.Manifest
