import Mathlib.Data.List.TakeWhile
import SdkEvidence.Manifest.Info
import SdkEvidence.Proofs.Manifest.Tag
import SdkEvidence.Proofs.Text.Search

/-!
# What is found in a manifest

The attributes of a body are the leftmost parts of it that spell one, each behind the end of the one
before (`attributes_eq_iff`), and the first tag of a kind is the leftmost one that is closed
(`firstBody?_eq_some_iff`). So the value of an attribute of that tag is the last that is spelled
there (`valueOf?_firstAttributes`), whatever else stands in the text.
-/
namespace SdkEvidence.Manifest

/-! ## Searching from the left -/

/-- What is searched for stands at no character of `front`, which stands before a text. -/
def NoneBefore (stands : List Char → Prop) (front text : List Char) : Prop :=
  ∀ part, part ≠ [] → part <:+ front → ¬stands (part ++ text)

theorem noneBefore_nil (stands : List Char → Prop) (text : List Char) :
    NoneBefore stands [] text :=
  fun _ hne hpart => absurd (List.suffix_nil.mp hpart) hne

theorem noneBefore_cons_iff {stands : List Char → Prop} {c : Char} {front text : List Char} :
    NoneBefore stands (c :: front) text ↔
      ¬stands (c :: (front ++ text)) ∧ NoneBefore stands front text := by
  constructor
  · exact fun h => ⟨h (c :: front) (List.cons_ne_nil _ _) List.suffix_rfl,
      fun part hne hpart => h part hne (hpart.trans (List.suffix_cons c front))⟩
  · rintro ⟨hhere, hfront⟩ part hne hpart
    rcases List.suffix_cons_iff.mp hpart with rfl | hpart
    · exact hhere
    · exact hfront part hne hpart

/-! ## Attributes -/

/-- A text starts with an attribute: a name, an equals sign with blanks around it if need be, and a
value in quotes. -/
structure Opens (text name value rest : List Char) : Prop where
  named : name ≠ [] ∧ ∀ c ∈ name, isAttributeChar c = true
  unquoted : '"' ∉ value
  spelled : ∃ before after, (∀ c ∈ before, Text.isBlank c = true) ∧
    (∀ c ∈ after, Text.isBlank c = true) ∧
    text = name ++ (before ++ '=' :: (after ++ '"' :: (value ++ '"' :: rest)))

/-- Whether a text starts with an attribute. -/
def OpensAttribute (text : List Char) : Prop :=
  ∃ name value rest, Opens text name value rest

/-- The attributes that are spelled in a text from the left, each behind the one before. -/
inductive Spells : List Char → List Attribute → Prop where
  | none {text : List Char} (never : NoneBefore OpensAttribute text []) : Spells text []
  | next {front text name value rest : List Char} {more : List Attribute}
      (leftmost : NoneBefore OpensAttribute front text)
      (opens : Opens text name value rest) (following : Spells rest more) :
      Spells (front ++ text) ((String.ofList name, String.ofList value) :: more)

/-- An attribute has a value in a body: of those that are spelled there with its name, the last one
has it. -/
def HasValue (body : List Char) (name value : String) : Prop :=
  ∃ before after, Spells body (before ++ (name, value) :: after) ∧
    ∀ other ∈ after, other.1 ≠ name

theorem exists_run (p : Char → Bool) (text : List Char) : ∃ run rest, text = run ++ rest ∧
    text.takeWhile p = run ∧ (∀ c ∈ run, p c = true) ∧ ∀ c ∈ rest.head?, p c = false := by
  refine ⟨text.takeWhile p, text.dropWhile p, List.takeWhile_append_dropWhile.symm, rfl,
    fun c hc => List.mem_takeWhile_imp hc, fun c hc => ?_⟩
  have hstop := List.head?_dropWhile_not p text
  rwa [Option.mem_def.mp hc] at hstop

theorem valueAfter?_spelled {before after value : List Char}
    (hbefore : ∀ c ∈ before, Text.isBlank c = true) (hafter : ∀ c ∈ after, Text.isBlank c = true)
    (hquote : '"' ∉ value) (rest : List Char) :
    valueAfter? (before ++ '=' :: (after ++ '"' :: (value ++ '"' :: rest))) =
      some (value, before.length + after.length + value.length + 3) := by
  have hvalue : (value ++ '"' :: rest).takeWhile (· != '"') = value :=
    takeWhile_append_cons (fun c hc => by simpa using ne_of_mem_of_not_mem hc hquote) (by decide)
      rest
  have hequals : Text.isBlank '=' = false := by decide
  have hopening : Text.isBlank '"' = false := by decide
  have hequals := takeWhile_append_cons hbefore hequals (after ++ '"' :: (value ++ '"' :: rest))
  have hopening := takeWhile_append_cons hafter hopening (value ++ '"' :: rest)
  simp [valueAfter?, hequals, hopening, hvalue]

/-- A value that is found is spelled there. -/
theorem exists_of_valueAfter? {text value : List Char} {width : ℕ}
    (h : valueAfter? text = some (value, width)) : '"' ∉ value ∧ ∃ before after rest,
      (∀ c ∈ before, Text.isBlank c = true) ∧ (∀ c ∈ after, Text.isBlank c = true) ∧
        text = before ++ '=' :: (after ++ '"' :: (value ++ '"' :: rest)) := by
  obtain ⟨before, tail, rfl, hrun, hbefore, -⟩ := exists_run Text.isBlank text
  simp only [valueAfter?, hrun, List.drop_left] at h
  split at h
  next tail =>
    obtain ⟨after, tail, rfl, hrun, hafter, -⟩ := exists_run Text.isBlank tail
    simp only [hrun, List.drop_left] at h
    split at h
    next tail _ =>
      obtain ⟨found, tail, rfl, hrun, hfound, hend⟩ := exists_run (· != '"') tail
      simp only [hrun, List.drop_left] at h
      rw [Option.ite_none_left_eq_some, Option.some_inj, Prod.mk.injEq] at h
      obtain ⟨hclosed, rfl, -⟩ := h
      obtain ⟨c, rest, rfl⟩ := List.exists_cons_of_ne_nil (by simpa using hclosed)
      obtain rfl : c = '"' := by simpa using hend
      exact ⟨fun hquote => by simpa using hfound _ hquote, before, after, rest, hbefore, hafter,
        rfl⟩
    next => cases h
  next => cases h

/-- What follows a name is no longer part of it. -/
theorem takeWhile_name {name before : List Char} (hname : ∀ c ∈ name, isAttributeChar c = true)
    (hbefore : ∀ c ∈ before, Text.isBlank c = true) (rest : List Char) :
    (name ++ (before ++ '=' :: rest)).takeWhile isAttributeChar = name := by
  cases before with
  | nil => exact takeWhile_append_cons hname (by decide +kernel) rest
  | cons c before =>
    exact takeWhile_append_cons hname
      (isAttributeChar_of_isBlank (hbefore c List.mem_cons_self)) _

/-- An attribute that stands here is read, and the reading goes on behind it. -/
theorem attributesFrom_opens {text name value rest : List Char} (h : Opens text name value rest) :
    attributesFrom 0 text =
      (String.ofList name, String.ofList value) :: attributesFrom 0 rest := by
  obtain ⟨before, after, hbefore, hafter, rfl⟩ := h.spelled
  rw [attributesFrom_named h.named.1 (takeWhile_name h.named.2 hbefore _)
    (valueAfter?_spelled hbefore hafter h.unquoted rest)]
  have hwidth : before.length + after.length + value.length + 3 =
      (before ++ '=' :: (after ++ '"' :: (value ++ ['"']))).length := by
    simp only [List.length_append, List.length_cons, List.length_nil]
    omega
  have htext : before ++ '=' :: (after ++ '"' :: (value ++ '"' :: rest)) =
      before ++ '=' :: (after ++ '"' :: (value ++ ['"'])) ++ rest := by
    simp
  rw [hwidth, htext, List.drop_left]

theorem attributesFrom_unvalued {name tail : List Char}
    (hname : ∀ c ∈ name, isAttributeChar c = true)
    (htail : ∀ c ∈ tail.head?, isAttributeChar c = false) (hvalue : valueAfter? tail = none) :
    attributesFrom 0 (name ++ tail) = attributesFrom 0 tail := by
  cases name with
  | nil => rfl
  | cons c more =>
    have hstop : tail.takeWhile isAttributeChar = [] := by
      cases tail with
      | nil => rfl
      | cons d tail => exact List.takeWhile_cons_of_neg (by simp [htail d rfl])
    have hrun : (c :: more ++ tail).takeWhile isAttributeChar = c :: more := by
      rw [List.takeWhile_append_of_pos hname, hstop, List.append_nil]
    rw [List.cons_append] at hrun ⊢
    simp [attributesFrom, hrun, hvalue, attributesFrom_skip]

/-- Where no attribute stands the reading goes on one character further. -/
theorem attributesFrom_of_not_opens {c : Char} {rest : List Char}
    (h : ¬OpensAttribute (c :: rest)) : attributesFrom 0 (c :: rest) = attributesFrom 0 rest := by
  obtain ⟨name, tail, htext, -, hname, htail⟩ := exists_run isAttributeChar (c :: rest)
  cases name with
  | nil =>
    obtain rfl : tail = c :: rest := by simpa using htext.symm
    exact @attributesFrom_pass [c] (by simpa using htail) rest
  | cons d more =>
    obtain ⟨rfl, rfl⟩ := List.cons.inj htext
    have hvalue : valueAfter? tail = none := by
      rw [Option.eq_none_iff_forall_ne_some]
      rintro ⟨value, width⟩ hvalue
      obtain ⟨hquote, before, after, rest, hbefore, hafter, rfl⟩ := exists_of_valueAfter? hvalue
      exact h ⟨_, value, rest, ⟨List.cons_ne_nil _ _, hname⟩, hquote, before, after, hbefore,
        hafter, rfl⟩
    have hmore : ∀ c ∈ more, isAttributeChar c = true := fun c hc =>
      hname c (List.mem_cons_of_mem _ hc)
    exact (attributesFrom_unvalued hname htail hvalue).trans
      (attributesFrom_unvalued hmore htail hvalue).symm

theorem Spells.cons {c : Char} {rest : List Char} {found : List Attribute}
    (h : ¬OpensAttribute (c :: rest)) (hrest : Spells rest found) : Spells (c :: rest) found := by
  cases hrest with
  | none never => exact .none (noneBefore_cons_iff.mpr ⟨by rwa [List.append_nil], never⟩)
  | @next front _ _ _ _ _ leftmost opens following =>
    exact @Spells.next (c :: front) _ _ _ _ _ (noneBefore_cons_iff.mpr ⟨h, leftmost⟩) opens following

/-- Where no attribute stands in front of a text, its attributes are read behind that. -/
theorem attributesFrom_front {front text : List Char} (h : NoneBefore OpensAttribute front text) :
    attributesFrom 0 (front ++ text) = attributesFrom 0 text := by
  induction front with
  | nil => rfl
  | cons c front ih =>
    obtain ⟨hhere, hfront⟩ := noneBefore_cons_iff.mp h
    rw [List.cons_append, attributesFrom_of_not_opens hhere, ih hfront]

theorem Spells.eq {text : List Char} {found : List Attribute} (h : Spells text found) :
    attributes text = found := by
  rw [attributes]
  induction h with
  | none never => simpa [attributesFrom] using attributesFrom_front never
  | next leftmost opens _ ih => rw [attributesFrom_front leftmost, attributesFrom_opens opens, ih]

theorem length_lt_of_opens {text name value rest : List Char} (h : Opens text name value rest) :
    rest.length < text.length := by
  obtain ⟨before, after, -, -, rfl⟩ := h.spelled
  simp only [List.length_append, List.length_cons]
  omega

theorem spells_attributes (text : List Char) : Spells text (attributes text) := by
  rw [attributes]
  induction hlength : text.length using Nat.strong_induction_on generalizing text with
  | _ n ih =>
    by_cases hopens : OpensAttribute text
    · obtain ⟨name, value, rest, hopens⟩ := hopens
      rw [attributesFrom_opens hopens]
      exact .next (noneBefore_nil _ _) hopens (ih _ (hlength ▸ length_lt_of_opens hopens) rest rfl)
    · cases text with
      | nil => exact .none (noneBefore_nil _ _)
      | cons c rest =>
        rw [attributesFrom_of_not_opens hopens]
        exact .cons hopens (ih _ (by simp [← hlength]) rest rfl)

/-- The attributes that are read are those that are spelled. -/
theorem attributes_eq_iff {text : List Char} {found : List Attribute} :
    attributes text = found ↔ Spells text found :=
  ⟨fun h => h ▸ spells_attributes text, Spells.eq⟩

theorem valueOf?_attributes {body : List Char} {name value : String} :
    valueOf? (attributes body) name = some value ↔ HasValue body name value := by
  simp only [HasValue, ← attributes_eq_iff]
  rw [valueOf?, List.lookup_eq_some_iff]
  constructor
  · rintro ⟨after, before, hparts, hafter⟩
    refine ⟨before.reverse, after.reverse, ?_, fun other hother => ?_⟩
    · rw [← List.reverse_reverse (attributes body), hparts]
      simp
    · exact fun heq => by simpa [heq] using hafter other (List.mem_reverse.mp hother)
  · rintro ⟨before, after, hparts, hafter⟩
    refine ⟨after.reverse, before.reverse, by simp [hparts], fun other hother => ?_⟩
    rw [bne_iff_ne]
    exact (hafter other (List.mem_reverse.mp hother)).symm

/-! ## Tags -/

/-- A text starts with a tag that is closed: its opening, where no word may go on, and a body up to
the closing bracket. -/
structure StartsTag (opening text body : List Char) : Prop where
  unclosed : '>' ∉ body
  wordEnd : ∀ c ∈ body.head?, Text.isWord c = false
  spelled : ∃ rest, text = opening ++ (body ++ '>' :: rest)

/-- The body of the first tag with an opening. -/
def FirstTag (opening text body : List Char) : Prop :=
  ∃ front tag, text = front ++ tag ∧ StartsTag opening tag body ∧
    NoneBefore (fun part => ∃ other, StartsTag opening part other) front tag

theorem bodyBeforeClose?_eq_some_iff {text body : List Char} :
    bodyBeforeClose? text = some body ↔ '>' ∉ body ∧ ∃ rest, text = body ++ '>' :: rest := by
  constructor
  · intro h
    obtain ⟨found, tail, rfl, hrun, hfound, hend⟩ := exists_run (· != '>') text
    simp only [bodyBeforeClose?, hrun, List.drop_left] at h
    rw [Option.ite_none_left_eq_some, Option.some_inj] at h
    obtain ⟨hclosed, rfl⟩ := h
    obtain ⟨c, rest, rfl⟩ := List.exists_cons_of_ne_nil (by simpa using hclosed)
    obtain rfl : c = '>' := by simpa using hend
    exact ⟨fun hmem => by simpa using hfound _ hmem, rest, rfl⟩
  · rintro ⟨hbody, rest, rfl⟩
    exact bodyBeforeClose?_append hbody rest

theorem atWordEnd_iff (body rest : List Char) :
    atWordEnd (body ++ '>' :: rest) = true ↔ ∀ c ∈ body.head?, Text.isWord c = false := by
  have hclose : Text.isWord '>' = false := by decide +kernel
  cases body <;> simp [atWordEnd, hclose]

/-- A tag is read where one starts. -/
theorem tagAt?_singleton {opening text body : List Char} :
    (tagAt? text [opening]).map Prod.fst = some body ↔ StartsTag opening text body := by
  have hfound : (tagAt? text [opening]).map Prod.fst =
      (Text.dropLead? opening text).bind fun behind =>
        if atWordEnd behind then bodyBeforeClose? behind else none := by
    rw [tagAt?]
    cases Text.dropLead? opening text with
    | none => rfl
    | some behind =>
      dsimp only
      split
      next hend => simp [hend, Function.comp_def]
      next hend => simp [tagAt?, hend]
  rw [hfound, Option.bind_eq_some_iff]
  simp only [Text.dropLead?_eq_some_iff, Option.ite_none_right_eq_some,
    bodyBeforeClose?_eq_some_iff]
  constructor
  · rintro ⟨behind, rfl, hend, hbody, rest, rfl⟩
    exact ⟨hbody, (atWordEnd_iff body rest).mp hend, rest, rfl⟩
  · rintro ⟨hbody, hend, rest, rfl⟩
    exact ⟨_, rfl, (atWordEnd_iff body rest).mpr hend, hbody, rest, rfl⟩

theorem head?_bodiesFrom {opening text body : List Char} :
    (bodiesFrom [opening] 0 text).head? = some body ↔ FirstTag opening text body := by
  -- the first tag starts at the first character, or it is the first one of the rest
  induction text with
  | nil =>
    refine iff_of_false (by simp [bodiesFrom]) ?_
    rintro ⟨front, tag, htext, htag, -⟩
    obtain ⟨rest, rfl⟩ := htag.spelled
    simp at htext
  | cons c rest ih =>
    rw [bodiesFrom]
    cases htag : tagAt? (c :: rest) [opening] with
    | none =>
      have hnone : ∀ other, ¬StartsTag opening (c :: rest) other := fun other hother => by
        simp [← tagAt?_singleton, htag] at hother
      dsimp only
      rw [ih]
      constructor
      · rintro ⟨front, tag, rfl, hstarts, hfront⟩
        exact ⟨c :: front, tag, rfl, hstarts,
          noneBefore_cons_iff.mpr ⟨not_exists.mpr hnone, hfront⟩⟩
      · rintro ⟨front, tag, htext, hstarts, hfront⟩
        cases front with
        | nil => exact absurd (htext ▸ hstarts) (hnone body)
        | cons d front =>
          obtain ⟨rfl, rfl⟩ := List.cons.inj htext
          exact ⟨front, tag, rfl, hstarts, (noneBefore_cons_iff.mp hfront).2⟩
    | some found =>
      obtain ⟨found, width⟩ := found
      have hhere : StartsTag opening (c :: rest) found := tagAt?_singleton.mp (by rw [htag]; rfl)
      dsimp only
      rw [List.head?_cons, Option.some_inj]
      constructor
      · rintro rfl
        exact ⟨[], c :: rest, rfl, hhere, noneBefore_nil _ _⟩
      · rintro ⟨front, tag, htext, hstarts, hfront⟩
        cases front with
        | nil =>
          have hbody := tagAt?_singleton.mpr hstarts
          rw [← List.nil_append tag, ← htext, htag] at hbody
          exact Option.some_inj.mp hbody
        | cons d front =>
          obtain ⟨rfl, rfl⟩ := List.cons.inj htext
          exact absurd ⟨found, hhere⟩ (noneBefore_cons_iff.mp hfront).1

/-- The first body of a kind is that of the first tag of the kind. -/
theorem firstBody?_eq_some_iff {opening : String} {text body : List Char} :
    firstBody? [opening] text = some body ↔ FirstTag opening.toList text body :=
  head?_bodiesFrom

/-- The value of an attribute that the first tag of a kind carries. -/
theorem valueOf?_firstAttributes {opening name value : String} {text : List Char} :
    valueOf? (firstAttributes [opening] text) name = some value ↔
      ∃ body, FirstTag opening.toList text body ∧ HasValue body name value := by
  rw [firstAttributes]
  cases hbody : firstBody? [opening] text with
  | none =>
    refine iff_of_false (by simp [valueOf?]) ?_
    rintro ⟨body, htag, -⟩
    rw [firstBody?_eq_some_iff.mpr htag] at hbody
    cases hbody
  | some body =>
    rw [Option.map_some, Option.getD_some, valueOf?_attributes]
    constructor
    · exact fun hvalue => ⟨body, firstBody?_eq_some_iff.mp hbody, hvalue⟩
    · rintro ⟨other, htag, hvalue⟩
      rw [firstBody?_eq_some_iff.mpr htag, Option.some_inj] at hbody
      exact hbody ▸ hvalue

end SdkEvidence.Manifest
