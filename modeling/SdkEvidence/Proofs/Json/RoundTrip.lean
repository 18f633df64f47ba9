import Mathlib.Data.List.DropRight
import SdkEvidence.Proofs.Decimal.Digits
import SdkEvidence.Proofs.Json.Strings

/-!
# Values written and read back

A value over several lines is read back as the value (`read?_pretty`), if its numbers are natural
numbers of sixty-four bits and its containers are not nested too deep (`Written`). The layout plays
no part: what is read after a line break is what is read without it. A number ends where its digits
end, so a value is read back in front of a comma, a line break or the end of the text (`Followed`).
-/
namespace SdkEvidence.Json

/-- The numbers of sixty-four bits. -/
abbrev IsCount (n : Nat) : Prop :=
  n < Nat.pow 2 64

/-- Values with containers nested to `depth` and counts for numbers. -/
inductive Written : Nat → Json → Prop
  | null (depth : Nat) : Written depth .null
  | bool (depth : Nat) (b : Bool) : Written depth (.bool b)
  | nat (depth : Nat) {n : Nat} (h : IsCount n) : Written depth (.number (.natural n))
  | string (depth : Nat) (s : String) : Written depth (.string s)
  | array {depth : Nat} {items : List Json} (h : ∀ item ∈ items, Written depth item) :
      Written (depth + 1) (.array items)
  | object {depth : Nat} {members : List (String × Json)}
      (h : ∀ member ∈ members, Written depth member.2) : Written (depth + 1) (.object members)

/-- What may stand after a value. -/
def Followed (rest : List Char) : Prop :=
  ∀ c ∈ rest.head?, c = ',' ∨ c = '\n'

theorem followed_nil : Followed [] := fun _ hc => nomatch hc

theorem followed_comma (rest : List Char) : Followed (',' :: rest) := by
  simp [Followed]

theorem followed_newLine (level : Nat) (rest : List Char) : Followed (newLine level ++ rest) := by
  simp [Followed, newLine]

/-! ## Blanks -/

theorem skipGap_cons {c : Char} (h : isGap c = false) (rest : List Char) :
    skipGap (c :: rest) = c :: rest := by
  rw [skipGap, List.dropWhile_cons, h]
  rfl

theorem skipGap_space (rest : List Char) : skipGap (' ' :: rest) = skipGap rest := rfl

theorem skipGap_newLine (level : Nat) (rest : List Char) :
    skipGap (newLine level ++ rest) = skipGap rest := by
  have hblanks : ∀ c ∈ newLine level, isGap c = true := by
    intro c hc
    rcases List.mem_cons.mp hc with rfl | hc
    · rfl
    · rw [(List.mem_replicate.mp hc).2]
      rfl
  exact List.dropWhile_append_of_pos hblanks

theorem skipGap_skipGap (text : List Char) : skipGap (skipGap text) = skipGap text :=
  List.dropWhile_idempotent isGap text

/-- A value is read from its first token on. -/
theorem readValue_of_skipGap {text text' : List Char} (h : skipGap text = skipGap text')
    (fuel depth : Nat) : readValue fuel depth text = readValue fuel depth text' := by
  cases fuel with
  | zero => rfl
  | succ fuel => rw [readValue, readValue, h]

theorem readItems_of_skipGap {text text' : List Char} (h : skipGap text = skipGap text')
    (fuel depth : Nat) (done : List Json) :
    readItems fuel depth done text = readItems fuel depth done text' := by
  cases fuel with
  | zero => rfl
  | succ fuel => rw [readItems, readItems, readValue_of_skipGap h]

theorem readMembers_of_skipGap {text text' : List Char} (h : skipGap text = skipGap text')
    (fuel depth : Nat) (done : List (String × Json)) :
    readMembers fuel depth done text = readMembers fuel depth done text' := by
  cases fuel with
  | zero => rfl
  | succ fuel => rw [readMembers, readMembers, h]

/-! ## Numbers -/

theorem Followed.not_isDigit {rest : List Char} (h : Followed rest) :
    ∀ c ∈ rest.head?, c.isDigit = false := by
  intro c hc
  rcases h c hc with rfl | rfl <;> rfl

theorem Followed.readFraction_eq {rest : List Char} (h : Followed rest) :
    readFraction rest = some (none, rest) := by
  unfold readFraction
  split
  next => exact absurd (h '.' rfl) (by decide)
  next => rfl

theorem Followed.readPower_eq {rest : List Char} (h : Followed rest) :
    readPower rest = some (none, rest) := by
  unfold readPower
  split
  next c rest =>
    rw [if_neg]
    rcases h c rfl with rfl | rfl <;> decide
  next => rfl

/-- The digits of a count are read back. -/
theorem readNumber_toDigits {n : Nat} (hn : IsCount n) {rest : List Char} (hrest : Followed rest) :
    readNumber (Nat.toDigits 10 n ++ rest) = some (.natural n, rest) := by
  obtain ⟨d, ds, hdigits, hd, hzero⟩ := Decimal.toDigits_cons n
  have hsplit : digits (Nat.toDigits 10 n ++ rest) = (Nat.toDigits 10 n, rest) := by
    obtain ⟨htake, hdrop⟩ := Decimal.takeWhile_digits
      (fun _ => Decimal.isDigit_toDigits (n := n)) hrest.not_isDigit
    rw [digits, htake, hdrop]
  have hvalue : digitsValue (Nat.toDigits 10 n) = n := Decimal.foldl_toDigits 0 n
  have hfinite : Literal.isFinite ⟨false, Nat.toDigits 10 n, none, none⟩ = true := by
    simp only [Literal.isFinite, Option.getD_none, List.append_nil, hvalue, List.length_nil]
    exact Decimal.ofDecimal?_isSome hn
  have hsign : d ≠ '-' := by
    rintro rfl
    exact absurd hd (by decide)
  have hwhole : ((Nat.toDigits 10 n).isEmpty
      || ((Nat.toDigits 10 n).head? == some '0' && 1 < (Nat.toDigits 10 n).length)) = false := by
    rw [hdigits]
    by_cases h : d = '0'
    · simp [hzero h]
    · simp [h]
  rw [readNumber]
  · dsimp only
    rw [hsplit]
    dsimp only
    rw [hwhole, if_neg Bool.false_ne_true, hrest.readFraction_eq]
    simp only [Option.bind_eq_bind, Option.bind_some, hrest.readPower_eq, hfinite, if_true]
    simp [Literal.toNumber, hvalue]
  · rw [hdigits]
    rintro tail heq
    exact hsign (List.cons.inj heq).1

/-! ## Steps -/

variable {fuel depth : Nat} {text rest rest' : List Char}

/-- A value that starts with a digit is a number. -/
theorem readValue_number {d : Char} (h : skipGap text = d :: rest) (hd : d.isDigit = true) :
    readValue (fuel + 1) depth text
      = (readNumber (d :: rest)).map fun (n, rest) => (.number n, rest) := by
  rw [readValue, h]
  split
  case h_7 => rfl
  all_goals
    rename_i heq
    exact absurd (List.cons.inj heq).1 (Decimal.ne_of_isDigit hd rfl)

theorem readValue_string (h : skipGap text = '"' :: rest) :
    readValue (fuel + 1) depth text
      = (readString [] rest).map fun (s, rest) => (.string s, rest) := by
  simp only [readValue, h]

theorem readValue_array {c : Char} (h : skipGap text = '[' :: rest)
    (hrest : skipGap rest = c :: rest') (hc : c ≠ ']') :
    readValue (fuel + 1) (depth + 1) text = readItems fuel depth [] rest := by
  rw [readItems_of_skipGap (skipGap_skipGap rest).symm]
  simp [readValue, h, hrest, hc]

theorem readValue_object {c : Char} (h : skipGap text = '\x7b' :: rest)
    (hrest : skipGap rest = c :: rest') (hc : c ≠ '\x7d') :
    readValue (fuel + 1) (depth + 1) text = readMembers fuel depth [] rest := by
  rw [readMembers_of_skipGap (skipGap_skipGap rest).symm]
  simp [readValue, h, hrest, hc]

section Items

variable {item : Json} {done : List Json} (hitem : readValue fuel depth text = some (item, rest))
include hitem

theorem readItems_more (hrest : skipGap rest = ',' :: rest') :
    readItems (fuel + 1) depth done text = readItems fuel depth (item :: done) rest' := by
  simp only [readItems, hitem, hrest]

theorem readItems_last (hrest : skipGap rest = ']' :: rest') :
    readItems (fuel + 1) depth done text = some (.array (done.reverse ++ [item]), rest') := by
  simp only [readItems, hitem, hrest, List.reverse_cons]

end Items

section Members

variable {key : String} {value : Json} {done : List (String × Json)} {literal keyed : List Char}
  (hstart : skipGap text = '"' :: literal) (hkey : readString [] literal = some (key, ':' :: keyed))
  (hvalue : readValue fuel depth keyed = some (value, rest))
include hstart hkey hvalue

theorem readMembers_more (hrest : skipGap rest = ',' :: rest') :
    readMembers (fuel + 1) depth done text
      = readMembers fuel depth ((key, value) :: done) rest' := by
  simp only [readMembers, hstart, hkey, skipGap_cons (show isGap ':' = false from rfl), hvalue,
    hrest]

theorem readMembers_last (hrest : skipGap rest = '\x7d' :: rest') :
    readMembers (fuel + 1) depth done text
      = some (.object (done.reverse ++ [(key, value)]), rest') := by
  simp only [readMembers, hstart, hkey, skipGap_cons (show isGap ':' = false from rfl), hvalue,
    hrest, List.reverse_cons]

end Members

/-! ## Values -/

/-- A value starts with a token, which does not close an array. -/
theorem prettyChars_cons {depth : Nat} {json : Json} (h : Written depth json) (level : Nat) :
    ∃ c tail, prettyChars level json = c :: tail ∧ isGap c = false ∧ c ≠ ']' := by
  cases h with
  | null => exact ⟨'n', _, rfl, rfl, by decide⟩
  | bool depth b => cases b <;> exact ⟨_, _, rfl, rfl, by decide⟩
  | nat =>
    obtain ⟨d, ds, hdigits, hd, -⟩ := Decimal.toDigits_cons _
    have hgap : isGap d = false := by
      have hne {c : Char} (hc : c.isDigit = false) : d ≠ c := Decimal.ne_of_isDigit hd hc
      simp [isGap, hne (c := ' ') rfl, hne (c := '\n') rfl, hne (c := '\t') rfl,
        hne (c := '\r') rfl]
    exact ⟨d, ds, hdigits, hgap, Decimal.ne_of_isDigit hd rfl⟩
  | string => exact ⟨'"', _, rfl, rfl, by decide⟩
  | @array _ items => cases items <;> exact ⟨'[', _, rfl, rfl, by decide⟩
  | @object _ members => cases members <;> exact ⟨'\x7b', _, rfl, rfl, by decide⟩

/-- Items start with the first one, after a line break. -/
theorem skipGap_prettyItems {item : Json} (h : Written depth item) (more : List Json) (level : Nat)
    (rest : List Char) :
    ∃ c tail, skipGap (prettyItems level (item :: more) ++ rest) = c :: tail ∧ c ≠ ']' := by
  have hstart : ∃ tail, prettyItems level (item :: more)
      = newLine level ++ (prettyChars level item ++ tail) := by
    cases more with
    | nil => exact ⟨[], by simp [prettyItems]⟩
    | cons next more => exact ⟨',' :: prettyItems level (next :: more), by simp [prettyItems]⟩
  obtain ⟨tail, htail⟩ := hstart
  obtain ⟨c, chars, hchars, hgap, hc⟩ := prettyChars_cons h level
  rw [htail, hchars, List.append_assoc, skipGap_newLine, List.cons_append, List.cons_append,
    skipGap_cons hgap]
  exact ⟨c, _, rfl, hc⟩

/-- Members start with the first key, after a line break. -/
theorem skipGap_prettyMembers (member : String × Json) (more : List (String × Json)) (level : Nat)
    (rest : List Char) :
    ∃ tail, skipGap (prettyMembers level (member :: more) ++ rest) = '"' :: tail := by
  have hstart : ∃ tail, prettyMembers level (member :: more) = newLine level ++ '"' :: tail := by
    cases more <;> simp [prettyMembers, quoted]
  obtain ⟨tail, htail⟩ := hstart
  rw [htail, List.append_assoc, skipGap_newLine, List.cons_append, skipGap_cons rfl]
  exact ⟨_, rfl⟩

/-- A value is read back on every level, given steps for each of its characters. Steps are counted
by characters because every step of the reader takes one at least, be it a line break. -/
def Reads (depth : Nat) (json : Json) : Prop :=
  ∀ (level fuel : Nat) (rest : List Char), Followed rest →
    (prettyChars level json).length ≤ fuel →
    readValue fuel depth (prettyChars level json ++ rest) = some (json, rest)

theorem reads_nat (depth : Nat) {n : Nat} (hn : IsCount n) :
    Reads depth (.number (.natural n)) := by
  rintro level (_ | fuel) rest hrest hfuel
  · exact absurd hfuel (by simp [prettyChars, numberChars])
  obtain ⟨d, ds, hchars, hgap, -⟩ := prettyChars_cons (.nat depth hn) level
  have hdigits : Nat.toDigits 10 n = d :: ds := hchars
  have hd : d.isDigit = true := Decimal.isDigit_toDigits (n := n) (hdigits ▸ List.mem_cons_self)
  rw [hchars, List.cons_append, readValue_number (skipGap_cons hgap _) hd, ← List.cons_append,
    ← hdigits, readNumber_toDigits hn hrest]
  rfl

/-- Items are read back onto those before them. -/
theorem readItems_prettyItems {level outer : Nat} {items : List Json} (hne : items ≠ [])
    (h : ∀ item ∈ items, Reads depth item) (hfuel : (prettyItems level items).length ≤ fuel)
    (done : List Json) (rest : List Char) :
    readItems fuel depth done (prettyItems level items ++ (newLine outer ++ ']' :: rest))
      = some (.array (done.reverse ++ items), rest) := by
  -- fuel for the whole text leaves enough for the items after the first one
  induction items generalizing fuel done with
  | nil => exact absurd rfl hne
  | cons item more ih =>
    obtain ⟨hitem, hmore⟩ := List.forall_mem_cons.mp h
    cases more with
    | nil =>
      have hchars : prettyItems level [item] = newLine level ++ prettyChars level item := rfl
      rw [hchars, List.length_append, newLine, List.length_cons] at hfuel
      obtain ⟨fuel, rfl⟩ : ∃ f, fuel = f + 1 := ⟨fuel - 1, by omega⟩
      rw [hchars, List.append_assoc, readItems_of_skipGap (skipGap_newLine level _)]
      refine readItems_last (hitem level fuel _ (followed_newLine outer _) (by omega)) ?_
      rw [skipGap_newLine, skipGap_cons rfl]
    | cons next more =>
      have hchars : prettyItems level (item :: next :: more)
          = newLine level ++ prettyChars level item
            ++ ',' :: prettyItems level (next :: more) := rfl
      rw [hchars, List.length_append, List.length_append, newLine, List.length_cons,
        List.length_cons] at hfuel
      obtain ⟨fuel, rfl⟩ : ∃ f, fuel = f + 1 := ⟨fuel - 1, by omega⟩
      rw [hchars, List.append_assoc, List.append_assoc, List.cons_append,
        readItems_of_skipGap (skipGap_newLine level _),
        readItems_more (hitem level fuel _ (followed_comma _) (by omega)) (skipGap_cons rfl _),
        ih (by simp) hmore (by omega), List.reverse_cons, List.append_assoc, List.singleton_append]

/-- Members are read back onto those before them. -/
theorem readMembers_prettyMembers {level outer : Nat} {members : List (String × Json)}
    (hne : members ≠ []) (h : ∀ member ∈ members, Reads depth member.2)
    (hfuel : (prettyMembers level members).length ≤ fuel) (done : List (String × Json))
    (rest : List Char) :
    readMembers fuel depth done (prettyMembers level members ++ (newLine outer ++ '\x7d' :: rest))
      = some (.object (done.reverse ++ members), rest) := by
  induction members generalizing fuel done with
  | nil => exact absurd rfl hne
  | cons member more ih =>
    obtain ⟨key, value⟩ := member
    obtain ⟨hmember, hmore⟩ := List.forall_mem_cons.mp h
    have hvalue : Reads depth value := hmember
    -- a blank stands between a key and its value
    have hspaced (fuel : Nat) (text : List Char) :
        readValue fuel depth (' ' :: prettyChars level value ++ text)
          = readValue fuel depth (prettyChars level value ++ text) :=
      readValue_of_skipGap (skipGap_space _) fuel depth
    cases more with
    | nil =>
      have hchars : prettyMembers level [(key, value)]
          = newLine level ++ quoted key ++ ':' :: ' ' :: prettyChars level value := rfl
      rw [hchars, List.length_append, List.length_append, List.length_cons, List.length_cons]
        at hfuel
      obtain ⟨fuel, rfl⟩ : ∃ f, fuel = f + 1 := ⟨fuel - 1, by omega⟩
      rw [hchars, List.append_assoc, List.append_assoc,
        readMembers_of_skipGap (skipGap_newLine level _)]
      obtain ⟨literal, hliteral, hkey⟩ := readString_quoted key _
      rw [hliteral]
      refine readMembers_last (skipGap_cons rfl _) hkey ((hspaced fuel _).trans
        (hvalue level fuel _ (followed_newLine outer _) (by omega))) ?_
      rw [skipGap_newLine, skipGap_cons rfl]
    | cons next more =>
      have hchars : prettyMembers level ((key, value) :: next :: more)
          = newLine level ++ quoted key ++ ':' :: ' ' :: prettyChars level value
            ++ ',' :: prettyMembers level (next :: more) := rfl
      rw [hchars] at hfuel
      simp only [List.length_append, List.length_cons] at hfuel
      obtain ⟨fuel, rfl⟩ : ∃ f, fuel = f + 1 := ⟨fuel - 1, by omega⟩
      rw [hchars, List.append_assoc, List.append_assoc, List.append_assoc, List.cons_append,
        List.cons_append, List.cons_append, readMembers_of_skipGap (skipGap_newLine level _)]
      obtain ⟨literal, hliteral, hkey⟩ := readString_quoted key _
      rw [hliteral, readMembers_more (skipGap_cons rfl _) hkey ((hspaced fuel _).trans
        (hvalue level fuel _ (followed_comma _) (by omega))) (skipGap_cons rfl _),
        ih (by simp) hmore (by omega), List.reverse_cons, List.append_assoc, List.singleton_append]

/-- Every written value is read back. -/
theorem Written.reads {depth : Nat} {json : Json} (h : Written depth json) : Reads depth json := by
  -- a container takes a step for its bracket, and its parts are read by the lists' own inductions
  induction h with
  | null =>
    rintro level (_ | fuel) rest - hfuel
    · exact absurd hfuel (by simp [prettyChars])
    · rfl
  | bool depth b =>
    rintro level (_ | fuel) rest - hfuel
    · cases b <;> exact absurd hfuel (by simp [prettyChars])
    · cases b <;> rfl
  | nat depth hn => exact reads_nat depth hn
  | string depth s =>
    rintro level (_ | fuel) rest - hfuel
    · exact absurd hfuel (by simp [prettyChars, quoted])
    · obtain ⟨literal, hliteral, hread⟩ := readString_quoted s rest
      change readValue (fuel + 1) depth (quoted s ++ rest) = _
      rw [hliteral, readValue_string (skipGap_cons rfl _), hread]
      rfl
  | @array depth items h ih =>
    rintro level (_ | fuel) rest - hfuel
    · cases items <;> exact absurd hfuel (by simp [prettyChars])
    cases items with
    | nil => rfl
    | cons item more =>
      have hchars : prettyChars level (.array (item :: more))
          = '[' :: prettyItems (level + 1) (item :: more) ++ newLine level ++ [']'] := rfl
      rw [hchars, List.length_append, List.length_append, List.length_cons] at hfuel
      obtain ⟨c, tail, htext, hc⟩ := skipGap_prettyItems (h item List.mem_cons_self) more
        (level + 1) (newLine level ++ ']' :: rest)
      rw [hchars, List.cons_append, List.cons_append, List.cons_append, List.append_assoc,
        List.append_assoc, List.singleton_append,
        readValue_array (skipGap_cons rfl _) htext hc,
        readItems_prettyItems (List.cons_ne_nil _ _) ih (by omega), List.reverse_nil,
        List.nil_append]
  | @object depth members h ih =>
    rintro level (_ | fuel) rest - hfuel
    · cases members <;> exact absurd hfuel (by simp [prettyChars])
    cases members with
    | nil => rfl
    | cons member more =>
      have hchars : prettyChars level (.object (member :: more))
          = '\x7b' :: prettyMembers (level + 1) (member :: more) ++ newLine level ++ ['\x7d'] := rfl
      rw [hchars, List.length_append, List.length_append, List.length_cons] at hfuel
      obtain ⟨tail, htext⟩ :=
        skipGap_prettyMembers member more (level + 1) (newLine level ++ '\x7d' :: rest)
      rw [hchars, List.cons_append, List.cons_append, List.cons_append, List.append_assoc,
        List.append_assoc, List.singleton_append,
        readValue_object (skipGap_cons rfl _) htext (by decide),
        readMembers_prettyMembers (List.cons_ne_nil _ _) ih (by omega), List.reverse_nil,
        List.nil_append]

/-- A value over several lines is read back. -/
theorem read?_pretty {json : Json} (h : Written depthLimit json) :
    read? json.pretty = some json := by
  have hread := h.reads 0 (json.pretty.length + 1) [] followed_nil (by simp [pretty])
  rw [List.append_nil] at hread
  rw [read?, pretty, String.toList_ofList, ← pretty, hread]
  rfl

end SdkEvidence.Json
