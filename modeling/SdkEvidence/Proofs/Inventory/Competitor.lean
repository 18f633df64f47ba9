import Mathlib.Data.List.Find
import SdkEvidence.Inventory.Competitor
import SdkEvidence.Proofs.Text.Blank
import SdkEvidence.Proofs.Text.Spelling

/-!
# Libraries that resemble a competitor's

The words of a name are looked for one after another, each as early as possible. This finds them if
they stand in order at all, since what follows the first occurrence of a word ends with what follows
any other (`afterFolded?_append`, `wordsIn_cons_iff`). So a text is told by a name exactly if the
words stand in it, in any case, at places one behind the other with no line end between them
(`isIn_iff`), and the first such name of the list is the competitor (`matchesAmong_first`).
-/
namespace SdkEvidence

/-- Places at which words stand in a text, but for case. Each word ends before the next one starts,
on the same line. -/
structure Text.StandAt (words : List (List Char)) (text : List Char) (place : ℕ → ℕ) : Prop where
  stands : ∀ i (h : i < words.length),
    Text.folded ((text.drop (place i)).take words[i].length) = Text.folded words[i]
  apart : ∀ i (h : i + 1 < words.length), place i + words[i].length ≤ place (i + 1)
  sameLine : ∀ i (h : i + 1 < words.length),
    '\n' ∉ (text.take (place (i + 1))).drop (place i + words[i].length)

namespace CompetitorList

open Text

/-- A library resembles a name that has words if these stand in its name or in its path. -/
def Resembles (name : String) (library : NativeLibrary) : Prop :=
  words name.toList ≠ [] ∧
    ((∃ place, StandAt (words name.toList) library.name.toList place) ∨
      ∃ place, StandAt (words name.toList) library.path.toList place)

/-! ## The search in a line -/

theorem afterFolded?_eq_some {word line rest : List Nat} (h : afterFolded? word line = some rest) :
    ∃ before, line = before ++ word ++ rest := by
  induction line with
  | nil =>
    simp only [afterFolded?, List.isEmpty_iff, Option.ite_none_right_eq_some, Option.some_inj] at h
    obtain ⟨rfl, rfl⟩ := h
    exact ⟨[], rfl⟩
  | cons n line ih =>
    rw [afterFolded?] at h
    split at h
    next hhere =>
      obtain ⟨more, hmore⟩ := List.isPrefixOf_iff_prefix.mp hhere
      rw [← hmore, List.drop_left, Option.some_inj] at h
      exact ⟨[], by rw [← hmore, h, List.nil_append]⟩
    next =>
      obtain ⟨before, rfl⟩ := ih h
      exact ⟨n :: before, rfl⟩

/-- What follows the first occurrence of a word ends with what follows any other. -/
theorem afterFolded?_append (before word rest : List Nat) :
    ∃ longer, afterFolded? word (before ++ word ++ rest) = some longer ∧ rest <:+ longer := by
  have hhere (line : List Nat) (hne : line ≠ []) (hword : word.isPrefixOf line = true) :
      afterFolded? word line = some (line.drop word.length) := by
    obtain ⟨n, line, rfl⟩ := List.exists_cons_of_ne_nil hne
    rw [afterFolded?, if_pos hword]
  induction before with
  | nil =>
    refine ⟨rest, ?_, List.suffix_refl rest⟩
    rcases List.eq_nil_or_concat (word ++ rest) with hnil | ⟨front, last, hsome⟩
    · obtain ⟨rfl, rfl⟩ := List.append_eq_nil_iff.mp hnil
      rfl
    · rw [List.nil_append, hhere _ (by simp [hsome])
        (List.isPrefixOf_iff_prefix.mpr (List.prefix_append word rest)), List.drop_left]
  | cons n before ih =>
    rw [List.cons_append, List.cons_append, afterFolded?]
    split
    next hword =>
      refine ⟨_, rfl, ?_⟩
      rw [show n :: (before ++ word ++ rest) = (n :: before ++ word) ++ rest by simp]
      rw [List.drop_append_of_le_length (by simp; omega)]
      exact List.suffix_append _ _
    next => exact ih

theorem wordsIn_append {words : List (List Nat)} {line : List Nat} (before : List Nat)
    (h : wordsIn words line = true) : wordsIn words (before ++ line) = true := by
  induction words generalizing before line with
  | nil => rfl
  | cons word more ih =>
    rw [wordsIn] at h
    split at h
    next rest hrest =>
      obtain ⟨front, rfl⟩ := afterFolded?_eq_some hrest
      obtain ⟨longer, hlonger, between, rfl⟩ := afterFolded?_append (before ++ front) word rest
      rw [← List.append_assoc, ← List.append_assoc, wordsIn, hlonger]
      exact ih between h
    next => cases h

/-- Taking the first word as early as possible does no harm to the others. -/
theorem wordsIn_cons_iff {word line : List Nat} {more : List (List Nat)} :
    wordsIn (word :: more) line = true
      ↔ ∃ before rest, line = before ++ word ++ rest ∧ wordsIn more rest = true := by
  constructor
  · intro h
    rw [wordsIn] at h
    split at h
    next rest hrest =>
      obtain ⟨before, hline⟩ := afterFolded?_eq_some hrest
      exact ⟨before, rest, hline, h⟩
    next => cases h
  · rintro ⟨before, rest, rfl, hmore⟩
    obtain ⟨longer, hlonger, between, rfl⟩ := afterFolded?_append before word rest
    rw [wordsIn, hlonger]
    exact wordsIn_append between hmore

theorem wordsIn_of_infix {words : List (List Nat)} {line longer : List Nat} (hin : line <:+: longer)
    (h : wordsIn words line = true) : wordsIn words longer = true := by
  induction words generalizing line longer with
  | nil => rfl
  | cons word more ih =>
    obtain ⟨front, back, rfl⟩ := hin
    obtain ⟨before, rest, rfl, hmore⟩ := wordsIn_cons_iff.mp h
    exact wordsIn_cons_iff.mpr ⟨front ++ before, rest ++ back, by simp,
      ih (List.prefix_append rest back).isInfix hmore⟩

/-! ## Words on one line -/

/-- Words stand one behind the other in a text, with no line end before any of them. -/
inductive Follow : List (List Char) → List Char → Prop
  | nil (rest : List Char) : Follow [] rest
  | cons (gap found : List Char) {word rest : List Char} {more : List (List Char)}
      (sameLine : '\n' ∉ gap) (stands : folded found = folded word) (behind : Follow more rest) :
      Follow (word :: more) (gap ++ found ++ rest)

theorem Follow.append {words : List (List Char)} {line : List Char} (h : Follow words line)
    (after : List Char) : Follow words (line ++ after) := by
  induction h with
  | nil rest => exact .nil _
  | cons gap found sameLine stands _ ih =>
    rw [List.append_assoc]
    exact .cons gap found sameLine stands ih

theorem Follow.of_wordsIn {words : List (List Char)} {line : List Char} (hline : '\n' ∉ line)
    (h : wordsIn (words.map folded) (folded line) = true) : Follow words line := by
  induction words generalizing line with
  | nil => exact .nil _
  | cons word more ih =>
    obtain ⟨before, rest, hparts, hmore⟩ := wordsIn_cons_iff.mp h
    obtain ⟨front, rest, rfl, hfront, rfl⟩ := List.map_eq_append_iff.mp hparts
    obtain ⟨gap, found, rfl, -, hfound⟩ := List.map_eq_append_iff.mp hfront
    simp only [List.mem_append, not_or] at hline
    exact .cons gap found hline.1.1 hfound (ih hline.2 hmore)

/-- Words without line ends that stand one behind the other do so on the first line. -/
theorem Follow.exists_line {words : List (List Char)} {text : List Char}
    (hwords : ∀ word ∈ words, '\n' ∉ word) (h : Follow words text) :
    ∃ line after, text = line ++ after ∧ '\n' ∉ line ∧
      wordsIn (words.map folded) (folded line) = true := by
  induction h with
  | nil rest => exact ⟨[], rest, rfl, List.not_mem_nil, rfl⟩
  | @cons gap found word rest more sameLine stands _ ih =>
    obtain ⟨hword, hmore⟩ := List.forall_mem_cons.mp hwords
    obtain ⟨line, after, rfl, hline, hin⟩ := ih hmore
    have hfound : '\n' ∉ found := by
      rw [← mem_folded_iff (t := '\n') (by decide) (by decide), stands,
        mem_folded_iff (by decide) (by decide)]
      exact hword
    refine ⟨gap ++ found ++ line, after, by simp, by simp [sameLine, hfound, hline],
      wordsIn_cons_iff.mpr ⟨folded gap, folded line, ?_, hin⟩⟩
    rw [← stands, folded, folded, folded, folded, List.map_append, List.map_append]

/-! ## Places -/

theorem follow_of_standAt {words : List (List Char)} {text : List Char} {place : ℕ → ℕ}
    (h : StandAt words text place) (start : ℕ) (hstart : words ≠ [] → start ≤ place 0)
    (hline : words ≠ [] → '\n' ∉ (text.take (place 0)).drop start) :
    Follow words (text.drop start) := by
  induction words generalizing place start with
  | nil => exact .nil _
  | cons word more ih =>
    have hsome : word :: more ≠ [] := List.cons_ne_nil _ _
    have hrest : StandAt more text fun i => place (i + 1) :=
      ⟨fun i hi => h.stands (i + 1) (Nat.succ_lt_succ hi),
        fun i hi => h.apart (i + 1) (Nat.succ_lt_succ hi),
        fun i hi => h.sameLine (i + 1) (Nat.succ_lt_succ hi)⟩
    have hmore (hne : more ≠ []) : 0 + 1 < (word :: more).length :=
      Nat.succ_lt_succ (List.length_pos_iff.mpr hne)
    -- what comes before the word, the word as it is found, and what comes after it
    have hparts : text.drop start = (text.take (place 0)).drop start
        ++ (text.drop (place 0)).take word.length ++ text.drop (place 0 + word.length) := by
      calc text.drop start
        _ = (text.drop start).take (place 0 - start) ++ text.drop (start + (place 0 - start)) :=
          (List.drop_take_append_drop text start _).symm
        _ = (text.take (place 0)).drop start ++ text.drop (place 0) := by
          rw [List.drop_take, Nat.add_sub_cancel' (hstart hsome)]
        _ = _ := by rw [List.append_assoc, List.drop_take_append_drop]
    rw [hparts]
    exact .cons _ _ (hline hsome) (h.stands 0 (Nat.succ_pos _))
      (ih hrest _ (fun hne => h.apart 0 (hmore hne)) fun hne => h.sameLine 0 (hmore hne))

theorem Follow.exists_standAt {words : List (List Char)} {rest : List Char} (h : Follow words rest)
    (before : List Char) : ∃ place, StandAt words (before ++ rest) place ∧
      (words ≠ [] → before.length ≤ place 0) ∧
      (words ≠ [] → '\n' ∉ ((before ++ rest).take (place 0)).drop before.length) := by
  induction h generalizing before with
  | nil rest => exact ⟨fun _ => 0, ⟨by simp, by simp, by simp⟩, by simp, by simp⟩
  | @cons gap found word rest more sameLine stands _ ih =>
    have hlength : found.length = word.length := by simpa [folded] using congrArg List.length stands
    obtain ⟨place, hplaces, hbehind, hline⟩ := ih (before ++ gap ++ found)
    rw [show before ++ gap ++ found ++ rest = before ++ (gap ++ found ++ rest) by simp]
      at hplaces hline
    refine ⟨fun i => i.casesOn (before.length + gap.length) place, ⟨?_, ?_, ?_⟩, ?_, ?_⟩
    · rintro (_ | i) hi
      · have hfound : ((before ++ (gap ++ found ++ rest)).drop (before.length + gap.length)).take
            word.length = found := by
          rw [show before ++ (gap ++ found ++ rest) = before ++ gap ++ (found ++ rest) by simp,
            List.drop_left' (List.length_append), List.take_left' hlength]
        exact (congrArg folded hfound).trans stands
      · exact hplaces.stands i (Nat.lt_of_succ_lt_succ hi)
    · rintro (_ | i) hi
      · have := hbehind (List.length_pos_iff.mp (Nat.lt_of_succ_lt_succ hi))
        simpa [hlength, Nat.add_assoc] using this
      · exact hplaces.apart i (Nat.lt_of_succ_lt_succ hi)
    · rintro (_ | i) hi
      · have := hline (List.length_pos_iff.mp (Nat.lt_of_succ_lt_succ hi))
        simpa [hlength, Nat.add_assoc] using this
      · exact hplaces.sameLine i (Nat.lt_of_succ_lt_succ hi)
    · exact fun _ => Nat.le_add_right _ _
    · intro _
      simpa [List.take_append, List.drop_append] using sameLine

/-! ## The competitor of a library -/

theorem newline_notMem_of_mem_words {text word : List Char} (h : word ∈ words text) :
    '\n' ∉ word := by
  intro hmem
  have hword := isBlank_of_mem_words h '\n' hmem
  simp [isBlank] at hword

/-- A text is told by words exactly if they stand in it. -/
theorem isIn_iff (name text : String) : isIn (wordsOf name) text = true
    ↔ ∃ place, StandAt (words name.toList) text.toList place := by
  rw [isIn, List.any_eq_true]
  constructor
  · rintro ⟨line, hline, hin⟩
    obtain ⟨before, after, htext⟩ := infix_of_mem_splitOn hline
    have hfollow := (Follow.of_wordsIn (notMem_of_mem_splitOn hline) hin).append after
    obtain ⟨place, hplace, -⟩ := hfollow.exists_standAt before
    rw [← List.append_assoc, htext] at hplace
    exact ⟨place, hplace⟩
  · rintro ⟨place, hplace⟩
    have hfollow := follow_of_standAt hplace (place 0) (fun _ => le_refl _) fun _ => by
      rw [List.drop_of_length_le (List.length_take_le _ _)]
      exact List.not_mem_nil
    obtain ⟨line, after, htext, hline, hin⟩ :=
      hfollow.exists_line fun word hword => newline_notMem_of_mem_words hword
    have hinfix : line <:+: text.toList :=
      (htext ▸ List.prefix_append line after).isInfix.trans (List.drop_suffix _ _).isInfix
    obtain ⟨piece, hpiece, hpart⟩ := exists_mem_splitOn_infix hinfix hline
    exact ⟨piece, hpiece, wordsIn_of_infix (hpart.map fold) hin⟩

variable {list : CompetitorList} {library : NativeLibrary} {name : String}

/-- Whether a name of the list is searched for and found. -/
def tells (library : NativeLibrary) (name : String) : Bool :=
  !(wordsOf name).isEmpty
    && (isIn (wordsOf name) library.name || isIn (wordsOf name) library.path)

theorem tells_iff : tells library name = true ↔ Resembles name library := by
  rw [tells, Bool.and_eq_true, Bool.or_eq_true, isIn_iff, isIn_iff, Resembles, wordsOf,
    List.isEmpty_map, Bool.not_eq_true', List.isEmpty_eq_false_iff]

theorem resembled?_eq (list : CompetitorList) (library : NativeLibrary) :
    list.resembled? library = list.names.find? (tells library) := by
  rw [resembled?, searchable, List.find?_filter]
  refine List.find?_congr fun name _ => ?_
  rw [Bool.decide_and, Bool.decide_eq_true, Bool.decide_eq_true, tells]

theorem resembled?_eq_some_iff : list.resembled? library = some name
    ↔ ∃ before after, list.names = before ++ name :: after ∧ Resembles name library ∧
        ∀ other ∈ before, ¬Resembles other library := by
  simp only [resembled?_eq, List.find?_eq_some_iff_append, Bool.not_eq_true', ← tells_iff,
    Bool.not_eq_true]
  constructor
  · rintro ⟨hname, before, after, hplace, hfirst⟩
    exact ⟨before, after, hplace, hname, hfirst⟩
  · rintro ⟨before, after, hplace, hname, hfirst⟩
    exact ⟨hname, before, after, hplace, hfirst⟩

theorem resembled?_eq_none_iff :
    list.resembled? library = none ↔ ∀ name ∈ list.names, ¬Resembles name library := by
  simp only [resembled?_eq, List.find?_eq_none, tells_iff]

/-- A match tells of a library which name it resembles first. -/
structure Tells (list : CompetitorList) (library : NativeLibrary) (found : CompetitorMatch) :
    Prop where
  name : found.libraryName = library.name
  path : found.libraryPath = library.path
  size : found.librarySize = library.size
  competitor : list.resembled? library = some found.competitor

theorem matchesAmong_tells (list : CompetitorList) (libraries : List NativeLibrary) :
    List.Forall₂ list.Tells
      (libraries.filter fun library => (list.resembled? library).isSome)
      (list.matchesAmong libraries) := by
  rw [matchesAmong]
  induction libraries with
  | nil => exact .nil
  | cons library rest ih =>
    cases hfound : list.resembled? library with
    | none =>
      rw [List.filter_cons_of_neg (by simp [hfound]),
        List.filterMap_cons_none (by rw [matchOf?, hfound]; rfl)]
      exact ih
    | some competitor =>
      rw [List.filter_cons_of_pos (by simp [hfound]),
        List.filterMap_cons_some (by rw [matchOf?, hfound]; rfl)]
      exact .cons ⟨rfl, rfl, rfl, hfound⟩ ih

/-- Marks of a name stand for themselves, and of two names that fit the first one counts. -/
example :
    resembled? { names := ["Foxit+ PDF", " ", "PDF", "foxit pdf"] }
      { name := "libfoxit_PDF.so", architecture := "x86", path := "lib/x86/libfoxit_PDF.so"
        size := 1, description := none, vendor := none, version := none } = some "PDF" := by
  decide +kernel

end CompetitorList
end SdkEvidence
