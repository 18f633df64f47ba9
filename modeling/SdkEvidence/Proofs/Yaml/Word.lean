import Mathlib.Data.Bool.AllAny
import SdkEvidence.Yaml.Scalar

/-!
# Words in YAML texts

A word is the text of a scalar in which no character is a mark of the language. It is read whole,
be it plain or between quotes (`readPlain_key`, `readPlain_value`, `readQuoted_word`). Behind it
stands the colon of a key, or a line end and the spaces before the next token.
-/
namespace SdkEvidence.Yaml

/-! ## Words and scalars -/

/-- The characters of a word. -/
def wordChars : List Char :=
  "abcdefghijklmnopqrstuvwxyzABCDEFGHIJKLMNOPQRSTUVWXYZ0123456789+-._/$".toList

/-- A word, which no mark of the language ends. A hyphen alone would start an item. -/
structure Word where
  chars : List Char
  filled : chars ≠ []
  plain : ∀ c ∈ chars, c ∈ wordChars
  noHyphen : chars ≠ ['-']

/-- A key. The reader looks for the colon behind it no farther than this. -/
structure Key extends Word where
  short : chars.length ≤ 1024

/-- How a scalar is written. -/
inductive Quoting where
  | bare
  | single
  | double
  deriving DecidableEq, Repr

/-- A scalar of one word. -/
structure Scalar where
  quoting : Quoting
  word : Word

/-- What stands around the word. -/
def Quoting.marks : Quoting → List Char
  | bare => []
  | single => ['\'']
  | double => ['"']

/-- What is written for a scalar. -/
def Scalar.text (s : Scalar) : List Char :=
  s.quoting.marks ++ s.word.chars ++ s.quoting.marks

/-- What a character of a word is not. -/
structure Unmarked (x : Char) : Prop where
  notBlank : isBlank x = false
  notBreak : isBreak x = false
  notColon : x ≠ ':'
  notHash : x ≠ '#'
  notSingle : x ≠ '\''
  notDouble : x ≠ '"'
  notBackslash : x ≠ '\\'

theorem unmarked_of_mem {x : Char} (hx : x ∈ wordChars) : Unmarked x := by
  have facts : ∀ x ∈ wordChars, isBlank x = false ∧ isBreak x = false ∧ x ≠ ':' ∧ x ≠ '#' ∧
      x ≠ '\'' ∧ x ≠ '"' ∧ x ≠ '\\' :=
    List.all_iff_forall_prop.mp (by decide)
  obtain ⟨hblank, hbreak, hcolon, hhash, hsingle, hdouble, hslash⟩ := facts x hx
  exact ⟨hblank, hbreak, hcolon, hhash, hsingle, hdouble, hslash⟩

theorem Word.exists_cons (word : Word) :
    ∃ x more, word.chars = x :: more ∧ x ∈ wordChars ∧ Unmarked x := by
  obtain ⟨x, more, hchars⟩ := List.exists_cons_of_ne_nil word.filled
  have hx := word.plain x (hchars ▸ List.mem_cons_self)
  exact ⟨x, more, hchars, hx, unmarked_of_mem hx⟩

/-! ## Positions -/

namespace Cursor

variable (c : Cursor) (m n : Nat)

theorem rest_skip : (c.skip n).rest = c.rest.drop n := rfl

@[simp] theorem column_skip : (c.skip n).column = c.column + n := rfl

@[simp] theorem line_skip : (c.skip n).line = c.line := rfl

@[simp] theorem index_skip : (c.skip n).index = c.index + n := rfl

@[simp] theorem skip_zero : c.skip 0 = c := rfl

@[simp] theorem column_skipBreak : c.skipBreak.column = 0 := rfl

@[simp] theorem line_skipBreak : c.skipBreak.line = c.line + 1 := rfl

theorem skip_skip : (c.skip m).skip n = c.skip (m + n) := by
  simp only [skip, List.drop_drop, Nat.add_assoc]

theorem skip_one_skip : (c.skip 1).skip n = c.skip (n + 1) := by
  rw [skip_skip, Nat.add_comm]

variable {c} {rest : List Char}

theorem rest_skipBreak (hc : c.rest = '\n' :: rest) : c.skipBreak.rest = rest := by
  simp [skipBreak, hc]

theorem peek_of_rest {x : Char} (hc : c.rest = x :: rest) : c.peek 0 = some x := by
  simp [peek, hc]

theorem peek_second {x y : Char} (hc : c.rest = x :: y :: rest) : c.peek 1 = some y := by
  simp [peek, hc]

end Cursor

/-- So many spaces. -/
def spaces (n : Nat) : List Char :=
  List.replicate n ' '

theorem length_spaces (n : Nat) : (spaces n).length = n :=
  List.length_replicate

theorem drop_spaces (n : Nat) (more : List Char) : (spaces n ++ more).drop n = more := by
  rw [List.drop_append, length_spaces, Nat.sub_self, List.drop_zero,
    List.drop_eq_nil_of_le (Nat.le_of_eq (length_spaces n)), List.nil_append]

theorem spaces_succ (n : Nat) (more : List Char) :
    spaces (n + 1) ++ more = ' ' :: (spaces n ++ more) := by
  simp [spaces, List.replicate_succ]

/-- A token or the end of the text stands next. -/
def AtToken (rest : List Char) : Prop :=
  ∀ x ∈ rest.head?, x ≠ ' ' ∧ x ≠ '\t' ∧ x ≠ '#' ∧ isBreak x = false

theorem takeWhile_spaces {n : Nat} {more : List Char} (hmore : AtToken more) (tabs : Bool) :
    (spaces n ++ more).takeWhile (fun x => x == ' ' || (tabs && x == '\t')) = spaces n := by
  have hspace : ∀ x ∈ spaces n, (x == ' ' || (tabs && x == '\t')) = true := by
    intro x hx
    simp [List.eq_of_mem_replicate hx]
  rw [List.takeWhile_append_of_pos hspace]
  cases more with
  | nil => simp
  | cons x more =>
    obtain ⟨hx, ht, -, -⟩ := hmore x rfl
    simp [hx, ht]

theorem spaces_append_inj {m n : Nat} {front back : List Char} (hfront : AtToken front)
    (hback : AtToken back) (h : spaces m ++ front = spaces n ++ back) :
    m = n ∧ front = back := by
  have hm := takeWhile_spaces (n := m) hfront false
  rw [h, takeWhile_spaces hback false] at hm
  obtain rfl : n = m := by simpa [length_spaces] using congrArg List.length hm
  exact ⟨rfl, List.append_cancel_left h⟩

theorem atToken_word (word : Word) (rest : List Char) : AtToken (word.chars ++ rest) := by
  obtain ⟨x, more, hchars, -, hx⟩ := word.exists_cons
  have hblank := hx.notBlank
  simp only [isBlank, Bool.or_eq_false_iff, beq_eq_false_iff_ne] at hblank
  rw [hchars]
  intro y hy
  cases hy
  exact ⟨hblank.1, hblank.2, hx.notHash, hx.notBreak⟩

theorem atToken_scalar (value : Scalar) (rest : List Char) : AtToken (value.text ++ rest) := by
  obtain ⟨quoting, word⟩ := value
  cases quoting with
  | bare => simpa [Scalar.text, Quoting.marks] using atToken_word word rest
  | single =>
    intro x hx
    cases hx
    decide
  | double =>
    intro x hx
    cases hx
    decide

section Reading

variable {c : Cursor} {rest more : List Char} {n : Nat}

/-- Three hyphens or dots before a colon are no mark between documents. -/
theorem atDocumentMark_key {word : Word} (hc : c.rest = word.chars ++ ':' :: rest) :
    c.atDocumentMark = false := by
  have hcolon : isBlank ':' = false ∧ isBreak ':' = false := by decide
  match hchars : word.chars with
  | [] => exact absurd hchars word.filled
  | [x] => simp [Cursor.atDocumentMark, Cursor.sees, Cursor.peek, hc, hchars]
  | [x, y] => simp [Cursor.atDocumentMark, Cursor.sees, Cursor.peek, hc, hchars]
  | [x, y, z] => simp [Cursor.atDocumentMark, Cursor.gapAt, Cursor.peek, hc, hchars, hcolon]
  | x :: y :: z :: w :: more =>
    have hw := unmarked_of_mem (word.plain w (by simp [hchars]))
    simp [Cursor.atDocumentMark, Cursor.gapAt, Cursor.peek, hc, hchars, hw.notBlank, hw.notBreak]

/-! ## Plain words -/

theorem sees_hash_word {word : Word} (hc : c.rest = word.chars ++ rest) :
    c.sees 0 '#' = false := by
  obtain ⟨x, more, hchars, -, hx⟩ := word.exists_cons
  rw [hchars] at hc
  simp [Cursor.sees, Cursor.peek_of_rest hc, hx.notHash]

/-- A plain scalar is over at a line end or at the colon of a key. -/
def EndsWord (c : Cursor) : Prop :=
  c.atBreak = true ∨ (c.sees 0 ':' = true ∧ c.gapAt 1 = true)

theorem readPlainRun_word {word : List Char} (hword : ∀ x ∈ word, x ∈ wordChars) (fuel : Nat)
    (done : List Char) (hc : c.rest = word ++ rest) (hstop : EndsWord (c.skip word.length))
    (hfuel : word.length < fuel) :
    readPlainRun false fuel done c = some (done.reverse ++ word, c.skip word.length) := by
  induction word generalizing c fuel done with
  | nil =>
    cases fuel with
    | zero => simp at hfuel
    | succ fuel =>
      rw [List.length_nil, Cursor.skip_zero] at hstop ⊢
      cases hpeek : c.peek 0 with
      | none => simp [readPlainRun, hpeek]
      | some x =>
        simp only [EndsWord, Cursor.atBreak, Cursor.sees, hpeek, Option.any_some,
          beq_iff_eq, Option.some.injEq] at hstop
        rcases hstop with hbreak | ⟨hcolon, hgap⟩
        · simp [readPlainRun, hpeek, hbreak]
        · simp [readPlainRun, hpeek, hcolon, hgap]
  | cons x word ih =>
    cases fuel with
    | zero => simp at hfuel
    | succ fuel =>
      have hx := unmarked_of_mem (hword x List.mem_cons_self)
      have hmore := (List.forall_mem_cons.mp hword).2
      rw [List.length_cons, ← Cursor.skip_one_skip] at hstop
      have hnext := ih (c := c.skip 1) hmore fuel (x :: done) (by simp [Cursor.rest_skip, hc]) hstop
        (Nat.lt_of_succ_lt_succ hfuel)
      simp [readPlainRun, Cursor.peek_of_rest hc, hx.notBlank, hx.notBreak, hx.notColon, hnext,
        Cursor.skip_one_skip]

/-- The spaces before a token are passed over, once a line has ended. -/
theorem readGap_spaces {fuel : Nat} {least : Int} {gap : Gap} (hgap : gap.broken = true)
    (hc : c.rest = spaces n ++ more) (hmore : AtToken more) (hfuel : n < fuel) :
    readGap (some least) fuel gap c = some (gap, c.skip n) := by
  induction n generalizing c fuel with
  | zero =>
    cases fuel with
    | zero => simp at hfuel
    | succ fuel =>
      rw [Cursor.skip_zero]
      cases hpeek : c.peek 0 with
      | none => simp [readGap, hpeek]
      | some x =>
        have hx : x ∈ more.head? := by
          rw [List.head?_eq_getElem?]
          simpa [Cursor.peek, hc, spaces] using hpeek
        obtain ⟨hspace, htab, -, hbreak⟩ := hmore x hx
        simp [readGap, hpeek, isBlank, hspace, htab, hbreak]
  | succ n ih =>
    cases fuel with
    | zero => simp at hfuel
    | succ fuel =>
      rw [spaces_succ] at hc
      have hnext := ih (c := c.skip 1) (by simp [Cursor.rest_skip, hc])
        (Nat.lt_of_succ_lt_succ hfuel)
      simp [readGap, Cursor.peek_of_rest hc, isBlank, hgap, hnext, Cursor.skip_one_skip]

theorem readGap_newline (least : Int) (gap : Gap) (fuel : Nat) (hgap : gap.broken = false)
    (hc : c.rest = '\n' :: spaces n ++ more) (hmore : AtToken more) (hfuel : n + 1 < fuel) :
    readGap (some least) fuel gap c =
      some ({ gap with blanks := [], broken := true, first := ['\n'] }, c.skipBreak.skip n) := by
  cases fuel with
  | zero => simp at hfuel
  | succ fuel =>
    have htext : c.breakText = ['\n'] := by simp [Cursor.breakText, hc]
    have hblank : isBlank '\n' = false := by decide
    have hbreak : isBreak '\n' = true := by decide
    rw [readGap, Cursor.peek_of_rest hc]
    simp only [hblank, hbreak, hgap, htext]
    exact readGap_spaces rfl (Cursor.rest_skipBreak hc) hmore (Nat.lt_of_succ_lt_succ hfuel)

/-- A plain word is read up to the colon of its key. -/
theorem readPlain_key {word : Word} (least : Int) (hc : c.rest = word.chars ++ ':' :: rest)
    (hgap : (c.skip word.chars.length).gapAt 1 = true) :
    readPlain false least c = some (word.chars, false, c.skip word.chars.length) := by
  have hrest : (c.skip word.chars.length).rest = ':' :: rest := by
    simp [Cursor.rest_skip, hc]
  have hcolon := Cursor.peek_of_rest hrest
  have hrun := readPlainRun_word word.plain (c.rest.length + 1) [] hc
    (Or.inr ⟨by simp [Cursor.sees, hcolon], hgap⟩)
    (by simp only [hc, List.length_append, List.length_cons]; omega)
  have hblank : (c.skip word.chars.length).atBlank = false := by
    simp [Cursor.atBlank, hcolon, isBlank]
  have hbreak : (c.skip word.chars.length).atBreak = false := by
    simp [Cursor.atBreak, hcolon, isBreak]
  simp [readPlain, readPlainFrom, atDocumentMark_key hc, sees_hash_word hc, hrun, hblank, hbreak,
    word.filled, Gap.none, Gap.folded]

/-- A plain word at the end of a line is read with the way to the next token, which does not
continue it unless it stands deeper. -/
theorem readPlain_value {word : Word} (least : Int)
    (hc : c.rest = word.chars ++ '\n' :: spaces n ++ more) (hmore : AtToken more)
    (hleast : n ≤ least) (hmark : c.atDocumentMark = false) :
    readPlain false least c =
      some (word.chars, true, (c.skip word.chars.length).skipBreak.skip n) := by
  have hrest : (c.skip word.chars.length).rest = '\n' :: spaces n ++ more := by
    simp [Cursor.rest_skip, hc]
  have hbreak : (c.skip word.chars.length).atBreak = true := by
    simp [Cursor.atBreak, Cursor.peek_of_rest hrest, isBreak]
  rw [List.append_assoc] at hc
  have hrun := readPlainRun_word word.plain (c.rest.length + 1) [] hc (Or.inl hbreak)
    (by simp only [hc, List.length_append, List.length_cons]; omega)
  have hgap := readGap_newline (least + 1) Gap.none ((c.skip word.chars.length).rest.length + 1) rfl
    hrest hmore (by
      simp only [hrest, List.cons_append, List.length_cons, List.length_append, length_spaces]
      omega)
  have hnot : n < least + 1 := by omega
  simp [readPlain, readPlainFrom, hmark, sees_hash_word hc, hrun, hbreak, word.filled, Gap.folded,
    hgap, hnot]
  simp [Gap.none]

/-! ## Quoted words -/

theorem readQuotedRun_word {word : List Char} {quote : Char} (hquote : quote = '\'' ∨ quote = '"')
    (hword : ∀ x ∈ word, x ∈ wordChars) (fuel : Nat) (done : List Char)
    (hc : c.rest = word ++ quote :: '\n' :: rest) (hfuel : word.length < fuel) :
    readQuotedRun quote fuel done c = some (done.reverse ++ word, false, c.skip word.length) := by
  induction word generalizing c fuel done with
  | nil =>
    cases fuel with
    | zero => simp at hfuel
    | succ fuel =>
      have hnext : c.sees 1 '\'' = false := by simp [Cursor.sees, Cursor.peek_second hc]
      have hquote : isBlank quote = false ∧ isBreak quote = false := by
        rcases hquote with rfl | rfl <;> decide
      simp [readQuotedRun, Cursor.peek_of_rest hc, hquote, hnext]
  | cons x word ih =>
    cases fuel with
    | zero => simp at hfuel
    | succ fuel =>
      have hx := unmarked_of_mem (hword x List.mem_cons_self)
      have hmore := (List.forall_mem_cons.mp hword).2
      have hnext := ih (c := c.skip 1) hmore fuel (x :: done) (by simp [Cursor.rest_skip, hc])
        (Nat.lt_of_succ_lt_succ hfuel)
      have hother : x ≠ quote := by
        rcases hquote with rfl | rfl
        · exact hx.notSingle
        · exact hx.notDouble
      simp [readQuotedRun, Cursor.peek_of_rest hc, hx.notBlank, hx.notBreak, hx.notSingle,
        hx.notBackslash, hother, hnext, Cursor.skip_one_skip]

/-- A quoted word is read up to its closing quote. -/
theorem readQuoted_word {word : Word} {quote : Char} (hquote : quote = '\'' ∨ quote = '"')
    (hc : c.rest = quote :: word.chars ++ quote :: '\n' :: rest) :
    readQuoted quote c = some (word.chars, c.skip (word.chars.length + 2)) := by
  have hrest : (c.skip 1).rest = word.chars ++ quote :: '\n' :: rest := by
    simp [Cursor.rest_skip, hc]
  have hmark : (c.skip 1).atDocumentMark = false := by simp [Cursor.atDocumentMark]
  have hend : (c.skip 1).atEnd = false := by simp [Cursor.atEnd, hrest]
  have hrun := readQuotedRun_word hquote word.plain ((c.skip 1).rest.length + 1) [] hrest
    (by simp only [hrest, List.length_append, List.length_cons]; omega)
  have hclose : ((c.skip 1).skip word.chars.length).sees 0 quote = true := by
    simp [Cursor.sees, Cursor.peek, Cursor.rest_skip, hc]
  have hskip : ((c.skip 1).skip word.chars.length).skip 1 = c.skip (word.chars.length + 2) := by
    rw [Cursor.skip_one_skip, Cursor.skip_skip]
  simp [readQuoted, readQuotedFrom, hmark, hend, hrun, hclose, hskip]

end Reading

end SdkEvidence.Yaml
