import SdkEvidence.Proofs.Yaml.Word
import SdkEvidence.Yaml.Token

/-!
# Block layout

Mappings whose entries stand on lines of their own, at a column that is deeper than that of the
mapping around them, with one word in every key and scalar. `tokens?_entries` tells the tokens of
such a text, whatever its nesting, its widths of indentation and the quotes of its scalars.

The reader closes collections late: what a line ends is closed when the next token is looked for.
`Between` is the state it has between two lines, and every part of a layout leads from one such
state to another (`ReadsBlock`, `ReadsEntries`).
-/
namespace SdkEvidence.Yaml

/-- What stands behind a key: a scalar on the same line, a list of scalars on lines of their own,
or a mapping on deeper lines. A list or a mapping without entries is nothing. -/
inductive Block where
  | scalar (value : Scalar)
  | items (listed : List Scalar)
  | mapping (deeper : Nat) (entries : List (Key × Block))

/-- The lines of a list at a column. -/
def itemsText (column : Nat) (listed : List Scalar) : List Char :=
  listed.flatMap fun value => spaces column ++ '-' :: ' ' :: value.text ++ ['\n']

mutual

/-- The text behind a key at a column. -/
def Block.text (column : Nat) : Block → List Char
  | .scalar value => ' ' :: value.text ++ ['\n']
  | .items listed => '\n' :: itemsText column listed
  | .mapping deeper entries => '\n' :: entriesText (column + 1 + deeper) entries

/-- The lines of the entries of a mapping at a column. -/
def entriesText (column : Nat) : List (Key × Block) → List Char
  | [] => []
  | (key, block) :: rest =>
      spaces column ++ key.chars ++ ':' :: block.text column ++ entriesText column rest

end

/-- The token of a scalar. -/
def Scalar.token (s : Scalar) : Token :=
  .scalar (String.ofList s.word.chars) (s.quoting = .bare)

/-- The token of a key. -/
def Key.token (key : Key) : Token :=
  .scalar (String.ofList key.chars) true

/-- The tokens of a list. -/
def itemsTokens (listed : List Scalar) : List Token :=
  listed.flatMap fun value => [.blockEntry, value.token]

mutual

/-- The tokens of what stands behind a key. -/
def Block.tokens : Block → List Token
  | .scalar value => [value.token]
  | .items listed => itemsTokens listed
  | .mapping _ [] => []
  | .mapping _ (entry :: rest) => .blockMapping :: entriesTokens (entry :: rest) ++ [.blockEnd]

/-- The tokens of the entries of a mapping. -/
def entriesTokens : List (Key × Block) → List Token
  | [] => []
  | (key, block) :: rest => .key :: key.token :: .value :: block.tokens ++ entriesTokens rest

end

namespace Lexer

variable {c : Cursor} {tokens : List Token} {indent : Int} {indents : List Int}
  {keyAllowed : Bool} {key : Option KeySpot} {rest more after : List Char}

/-- A state outside of flow collections. -/
def outside (cursor : Cursor) (tokens : List Token) (indent : Int) (indents : List Int)
    (keyAllowed : Bool) (key : Option KeySpot) : Lexer :=
  { cursor, tokens := tokens.toArray, flow := 0, indent, indents, keyAllowed, keys := [key] }

@[simp] theorem inFlow_outside :
    (outside c tokens indent indents keyAllowed key).inFlow = false := rfl

@[simp] theorem cursor_outside :
    (outside c tokens indent indents keyAllowed key).cursor = c := rfl

/-! ## The way to the next token -/

/-- A column at the indentation or deeper closes nothing. -/
theorem closeTo_of_le {column : Int} (h : indent ≤ column) :
    (outside c tokens indent indents keyAllowed key).closeTo column =
      outside c tokens indent indents keyAllowed key := by
  cases indents <;> simp [closeTo, closeTo.close, outside, inFlow, Int.not_lt.mpr h]

/-- A column before the indentation closes the innermost collection. -/
theorem closeTo_of_lt {column above : Int} (h : column < indent) :
    (outside c tokens indent (above :: indents) keyAllowed key).closeTo column =
      (outside c (tokens ++ [.blockEnd]) above indents keyAllowed key).closeTo column := by
  simp [closeTo, closeTo.close, outside, inFlow, h]

theorem toToken_spaces {n fuel : Nat} (hc : c.rest = spaces n ++ more) (hmore : AtToken more) :
    toToken (fuel + 1) (outside c tokens indent indents keyAllowed key) =
      outside (c.skip n) tokens indent indents keyAllowed key := by
  have hrest : (c.skip n).rest = more := by rw [Cursor.rest_skip, hc, drop_spaces]
  have hfirst : (c.skip n).sees 0 '#' = false ∧ (c.skip n).atBreak = false := by
    cases more with
    | nil => simp [Cursor.sees, Cursor.atBreak, Cursor.peek, hrest]
    | cons x more =>
      obtain ⟨-, -, hhash, hbreak⟩ := hmore x rfl
      simp [Cursor.sees, Cursor.atBreak, Cursor.peek_of_rest hrest, hhash, hbreak]
  have htaken : (c.takeWhile fun x => x == ' ' || (!keyAllowed && x == '\t')).2 = c.skip n := by
    rw [Cursor.takeWhile, hc, takeWhile_spaces hmore, length_spaces]
  rw [toToken]
  simp only [outside, inFlow, Nat.lt_irrefl, decide_false, Bool.false_or, htaken, hfirst,
    Bool.false_eq_true, if_false]

theorem toToken_newline {fuel : Nat} (hc : c.rest = '\n' :: rest) :
    toToken (fuel + 1) (outside c tokens indent indents keyAllowed key) =
      toToken fuel (outside c.skipBreak tokens indent indents true key) := by
  have htaken : (c.takeWhile fun x => x == ' ' || (!keyAllowed && x == '\t')).2 = c := by
    simp [Cursor.takeWhile, hc]
  have hhash : c.sees 0 '#' = false := by simp [Cursor.sees, Cursor.peek_of_rest hc]
  have hbreak : c.atBreak = true := by simp [Cursor.atBreak, Cursor.peek_of_rest hc, isBreak]
  rw [toToken]
  simp only [outside, inFlow, Nat.lt_irrefl, decide_false, Bool.false_or, htaken, hhash, hbreak,
    Bool.false_eq_true, if_false, if_true, Bool.not_false, Bool.or_true]

theorem settle_spaces (n : Nat) {key' : Option KeySpot} (hc : c.rest = spaces n ++ more)
    (hmore : AtToken more) (hkey : fresh? (c.skip n) key = some key') :
    (outside c tokens indent indents keyAllowed key).settle =
      some ((outside (c.skip n) tokens indent indents keyAllowed key').closeTo
        (c.column + n : Nat)) := by
  have hdrop : (outside (c.skip n) tokens indent indents keyAllowed key).dropStaleKeys =
      some (outside (c.skip n) tokens indent indents keyAllowed key') := by
    simp [dropStaleKeys, outside, hkey]
  rw [settle, cursor_outside, toToken_spaces hc hmore, hdrop]
  rfl

theorem settle_newline {n : Nat} {key' : Option KeySpot} (hc : c.rest = '\n' :: spaces n ++ more)
    (hmore : AtToken more) (hkey : fresh? (c.skipBreak.skip n) key = some key') :
    (outside c tokens indent indents keyAllowed key).settle =
      some ((outside (c.skipBreak.skip n) tokens indent indents true key').closeTo n) := by
  have hrest : c.skipBreak.rest = spaces n ++ more := Cursor.rest_skipBreak hc
  have hlength : c.rest.length = c.skipBreak.rest.length + 1 := by rw [hrest, hc]; rfl
  have hsettle : (outside c.skipBreak tokens indent indents true key).settle =
      some ((outside (c.skipBreak.skip n) tokens indent indents true key').closeTo
        (c.skipBreak.column + n : Nat)) :=
    settle_spaces n hrest hmore hkey
  rw [Cursor.column_skipBreak, Nat.zero_add] at hsettle
  rw [← hsettle, settle, settle, cursor_outside, cursor_outside, hlength, toToken_newline hc]

/-- The way over one space to a token on the same line. -/
theorem settle_space (tokens : List Token) (indents : List Int) (keyAllowed : Bool)
    (hc : c.rest = ' ' :: more) (hmore : AtToken more) (hindent : indent ≤ c.column) :
    (outside c tokens indent indents keyAllowed none).settle =
      some (outside (c.skip 1) tokens indent indents keyAllowed none) := by
  rw [settle_spaces 1 hc hmore rfl, closeTo_of_le (by omega)]

/-! ## What stands next -/

/-- Of the marks a word starts with a hyphen at most, and that has no gap behind it. -/
theorem word_marks {word : Word} (hc : c.rest = word.chars ++ rest) :
    (∀ mark ∈ marks, mark ≠ '-' → c.sees 0 mark = false) ∧
      (c.sees 0 '-' = true → c.gapAt 1 = false) := by
  obtain ⟨x, more, hchars, hmem, -⟩ := word.exists_cons
  have hrest : c.rest = x :: (more ++ rest) := by rw [hc, hchars]; rfl
  have hpeek := Cursor.peek_of_rest hrest
  refine ⟨fun mark hmark hother => ?_, fun hsees => ?_⟩
  · have facts : ∀ x ∈ wordChars, x ∈ marks → x = '-' :=
      List.all_iff_forall_prop.mp (by decide +kernel)
    have hne : x ≠ mark := by
      rintro rfl
      exact hother (facts x hmem hmark)
    simpa [Cursor.sees, hpeek] using hne
  · have hhyphen : x = '-' := by simpa [Cursor.sees, hpeek] using hsees
    cases more with
    | nil => exact absurd (hhyphen ▸ hchars) word.noHyphen
    | cons y more =>
      have hy := unmarked_of_mem (word.plain y (by simp [hchars]))
      simp [Cursor.gapAt, Cursor.peek_second hrest, hy.notBlank, hy.notBreak]

theorem startsPlain_word {word : Word} (hc : c.rest = word.chars ++ rest) :
    (outside c tokens indent indents keyAllowed key).startsPlain = true := by
  obtain ⟨x, more, hchars, hmem, hx⟩ := word.exists_cons
  have hpeek : c.peek 0 = some x := Cursor.peek_of_rest (by rw [hc, hchars]; rfl)
  by_cases hhyphen : x = '-'
  · have hsees : c.sees 0 '-' = true := by simp [Cursor.sees, hpeek, hhyphen]
    have hblank : (c.peek 1).any isBlank = false := by
      have hnext := (word_marks hc).2 hsees
      unfold Cursor.gapAt at hnext
      cases hsecond : c.peek 1 with
      | none => rfl
      | some y =>
        rw [hsecond] at hnext
        exact (Bool.or_eq_false_iff.mp hnext).1
    simp [startsPlain, hsees, hblank]
  · have hgap : c.gapAt 0 = false := by simp [Cursor.gapAt, hpeek, hx.notBlank, hx.notBreak]
    have facts : ∀ x ∈ wordChars, x ≠ '-' → marks.contains x = false :=
      List.all_iff_forall_prop.mp (by decide +kernel)
    have hmarks : c.seesOneOf 0 marks = false := by
      rw [Cursor.seesOneOf, hpeek]
      exact facts x hmem hhyphen
    simp [startsPlain, hgap, hmarks]

theorem read_word {word : Word} (hc : c.rest = word.chars ++ rest)
    (hmark : c.atDocumentMark = false) :
    (outside c tokens indent indents keyAllowed key).read =
      (outside c tokens indent indents keyAllowed key).plainScalar := by
  have hend : c.atEnd = false := by
    obtain ⟨x, more, hchars, -⟩ := word.exists_cons
    simp [Cursor.atEnd, hc, hchars]
  obtain ⟨hother, hhyphen⟩ := word_marks hc
  have hitem : (c.sees 0 '-' && c.gapAt 1) = false := by
    cases hsees : c.sees 0 '-' with
    | false => rfl
    | true => exact hhyphen hsees
  simp only [read, cursor_outside, hend, hmark, hitem, hother '%' (by decide) (by decide),
    hother '[' (by decide) (by decide), hother '\x7b' (by decide) (by decide),
    hother ']' (by decide) (by decide), hother '\x7d' (by decide) (by decide),
    hother ',' (by decide) (by decide), hother '?' (by decide) (by decide),
    hother ':' (by decide) (by decide), hother '*' (by decide) (by decide),
    hother '&' (by decide) (by decide), hother '!' (by decide) (by decide),
    hother '|' (by decide) (by decide), hother '>' (by decide) (by decide),
    hother '\'' (by decide) (by decide), hother '"' (by decide) (by decide),
    Bool.false_and, Bool.and_false, Bool.false_eq_true, if_false, startsPlain_word hc, if_true]

theorem read_colon (hc : c.rest = ':' :: rest) (hgap : c.gapAt 1 = true) :
    (outside c tokens indent indents keyAllowed key).read =
      (outside c tokens indent indents keyAllowed key).valueMark := by
  have hend : c.atEnd = false := by simp [Cursor.atEnd, hc]
  simp [read, hend, Cursor.atDocumentMark, Cursor.sees, Cursor.peek_of_rest hc, hgap]

theorem read_hyphen (hc : c.rest = '-' :: ' ' :: rest) :
    (outside c tokens indent indents keyAllowed key).read =
      (outside c tokens indent indents keyAllowed key).blockEntry := by
  have hsecond := Cursor.peek_second hc
  have hend : c.atEnd = false := by simp [Cursor.atEnd, hc]
  have hgap : c.gapAt 1 = true := by simp [Cursor.gapAt, hsecond, isBlank]
  simp [read, hend, Cursor.atDocumentMark, Cursor.sees, Cursor.peek_of_rest hc, hsecond, hgap]

theorem read_quote {quote : Char} (hquote : quote = '\'' ∨ quote = '"')
    (hc : c.rest = quote :: rest) :
    (outside c tokens indent indents keyAllowed key).read =
      (outside c tokens indent indents keyAllowed key).mayBeKey (quotedScalar quote) := by
  have hend : c.atEnd = false := by simp [Cursor.atEnd, hc]
  rcases hquote with rfl | rfl <;>
    simp [read, hend, Cursor.atDocumentMark, Cursor.sees, Cursor.peek_of_rest hc]

theorem read_end (hc : c.rest = []) :
    (outside c tokens indent indents keyAllowed key).read =
      (outside c tokens indent indents keyAllowed key).atStreamEnd := by
  have hend : c.atEnd = true := by simp [Cursor.atEnd, hc]
  simp [read, hend]

/-! ## Keys -/

/-- The spot of a key, as it is remembered where the key starts. -/
def spotAt (c : Cursor) (tokens : List Token) (indent : Int) : KeySpot :=
  { required := indent == (c.column : Int), position := tokens.length, index := c.index,
    line := c.line, column := c.column }

theorem rememberKey_outside :
    (outside c tokens indent indents true none).rememberKey =
      some (outside c tokens indent indents true (some (spotAt c tokens indent))) := by
  simp [rememberKey, forgetKey, outside, spotAt, inFlow]

theorem plainScalar_key {word : Word} (hc : c.rest = word.chars ++ ':' :: rest)
    (hgap : (c.skip word.chars.length).gapAt 1 = true) :
    (outside c tokens indent indents true none).plainScalar =
      some (outside (c.skip word.chars.length) (tokens ++ [.scalar (String.ofList word.chars) true])
        indent indents false (some (spotAt c tokens indent))) := by
  rw [plainScalar, rememberKey_outside]
  simp [outside, inFlow, readPlain_key indent hc hgap, push]

/-- The tokens that open a mapping at a column, if it is deeper than the indentation. -/
def opening (indent : Int) (column : Nat) : List Token :=
  if indent < column then [.blockMapping] else []

/-- The indentations around what stands in such a mapping. -/
def around (indent : Int) (indents : List Int) (column : Nat) : List Int :=
  if indent < column then indent :: indents else indents

theorem insertIdx_between (front back : List Token) (token : Token) :
    (front ++ back).insertIdx front.length token = front ++ token :: back := by
  induction front with
  | nil => rfl
  | cons _ front ih => simp [ih]

/-- The colon puts the mark of a key, and of a mapping that starts with it, in front of the key. -/
theorem valueMark_key {start : Cursor} {token : Token} (hindent : indent ≤ start.column) :
    (outside c (tokens ++ [token]) indent indents keyAllowed
      (some (spotAt start tokens indent))).valueMark =
      some (outside (c.skip 1) (tokens ++ opening indent start.column ++ [.key, token, .value])
        start.column (around indent indents start.column) false none) := by
  have hkey : (tokens ++ [token]).toArray.insertIdxIfInBounds tokens.length .key =
      (tokens ++ [.key, token]).toArray := by
    simp [Array.insertIdxIfInBounds, insertIdx_between]
  have hmapping : (tokens ++ [.key, token]).toArray.insertIdx! tokens.length .blockMapping =
      (tokens ++ [.blockMapping, .key, token]).toArray := by
    simp [Array.insertIdx!, insertIdx_between]
  by_cases hdeeper : indent < start.column
  · simp [valueMark, outside, spotAt, hkey, indentTo, inFlow, hdeeper, hmapping, take, push,
      opening, around]
  · have hsame : indent = start.column := by omega
    simp [valueMark, outside, spotAt, hkey, indentTo, inFlow, take, push, opening, around, hsame]

/-! ## Steps -/

/-- The reader takes some steps, none of them to the end of the text. -/
def Reaches (steps : Nat) (s s' : Lexer) : Prop :=
  ∀ fuel, run (steps + fuel) s = run fuel s'

theorem Reaches.refl (s : Lexer) : Reaches 0 s s := by
  intro fuel
  rw [Nat.zero_add]

theorem Reaches.trans {s₁ s₂ s₃ : Lexer} {m n : Nat} (h : Reaches m s₁ s₂)
    (h' : Reaches n s₂ s₃) : Reaches (m + n) s₁ s₃ := by
  intro fuel
  rw [Nat.add_assoc, h, h']

theorem reaches_next {s s' : Lexer} (h : s.next = some s')
    (hback : s'.tokens.back? ≠ some .streamEnd) : Reaches 1 s s' := by
  intro fuel
  rw [Nat.add_comm, run, h]
  simp [hback]

theorem next_of_settle {s s' : Lexer} (h : s.settle = some s') : s.next = s'.read := by
  rw [next, h, Option.bind_some]

/-- A text in which the next token, or the end, stands after some spaces. -/
def Ahead (column : Nat) (text : List Char) : Prop :=
  ∃ n more, text = spaces n ++ more ∧ n ≤ column ∧ AtToken more

theorem Ahead.mono {m n : Nat} {text : List Char} (h : Ahead m text) (hle : m ≤ n) :
    Ahead n text := by
  obtain ⟨k, more, htext, hk, hmore⟩ := h
  exact ⟨k, more, htext, Nat.le_trans hk hle, hmore⟩

/-- The reader is between two lines. What the next token ends is not closed yet. -/
def Between (s : Lexer) (tokens : List Token) (indent : Int) (indents : List Int)
    (ahead : List Char) : Prop :=
  ∃ (n : Nat) (c : Cursor), ahead = spaces n ++ c.rest ∧ AtToken c.rest ∧ c.column = n ∧
    s.settle = some ((outside c tokens indent indents true none).closeTo n)

/-- Before a line at the indentation nothing is to be closed. -/
theorem Between.settle_eq {s : Lexer} {column : Nat}
    (h : Between s tokens column indents (spaces column ++ more)) (hmore : AtToken more) :
    ∃ c : Cursor, c.rest = more ∧ c.column = column ∧
      s.settle = some (outside c tokens column indents true none) := by
  obtain ⟨n, c, hahead, htoken, hcolumn, hs⟩ := h
  obtain ⟨rfl, hrest⟩ := spaces_append_inj hmore htoken hahead
  refine ⟨c, hrest.symm, hcolumn, ?_⟩
  rw [hs, closeTo_of_le (Int.le_refl _)]

/-- A line before the indentation closes the innermost mapping. -/
theorem Between.close {s : Lexer} {column deeper : Nat} {ahead : List Char}
    (h : Between s tokens deeper (column :: indents) ahead) (hahead : Ahead column ahead)
    (hdeeper : column < deeper) :
    Between s (tokens ++ [.blockEnd]) column indents ahead := by
  obtain ⟨n, c, rfl, htoken, hcolumn, hs⟩ := h
  obtain ⟨m, more, htext, hm, hmore⟩ := hahead
  obtain ⟨rfl, -⟩ := spaces_append_inj htoken hmore htext
  refine ⟨n, c, rfl, htoken, hcolumn, ?_⟩
  rw [hs, closeTo_of_lt (by omega)]

/-- At the end of a line the reader is between lines. -/
theorem between_newline {key : Option KeySpot} {column : Nat} {ahead : List Char}
    (hc : c.rest = '\n' :: ahead) (hahead : Ahead column ahead)
    (hstale : ∀ later : Cursor, c.line < later.line → fresh? later key = some none) :
    Between (outside c tokens indent indents keyAllowed key) tokens indent indents ahead := by
  obtain ⟨n, more, rfl, -, hmore⟩ := hahead
  have hrest : (c.skipBreak.skip n).rest = more := by
    rw [Cursor.rest_skip, Cursor.rest_skipBreak hc, drop_spaces]
  exact ⟨n, c.skipBreak.skip n, by rw [hrest], hrest ▸ hmore, by simp,
    settle_newline hc hmore (hstale _ (by simp))⟩

/-- A key. The mapping that it may open is not known before its colon. -/
theorem next_key {s : Lexer} {key : Key}
    (hs : s.settle = some (outside c tokens indent indents true none))
    (hc : c.rest = key.chars ++ ':' :: rest)
    (hgap : (c.skip key.chars.length).gapAt 1 = true) :
    s.next = some (outside (c.skip key.chars.length) (tokens ++ [key.token]) indent indents false
      (some (spotAt c tokens indent))) := by
  rw [next_of_settle hs, read_word hc (atDocumentMark_key hc), plainScalar_key hc hgap]
  rfl

/-- The colon of a key, which stands on the same line not far behind. -/
theorem next_colon {key : Key} (hc : c.rest = key.chars ++ ':' :: rest)
    (hgap : (c.skip key.chars.length).gapAt 1 = true) (hindent : indent ≤ c.column) :
    (outside (c.skip key.chars.length) (tokens ++ [key.token]) indent indents false
      (some (spotAt c tokens indent))).next =
      some (outside (c.skip (key.chars.length + 1))
        (tokens ++ opening indent c.column ++ [.key, key.token, .value]) c.column
          (around indent indents c.column) false none) := by
  have hrest : (c.skip key.chars.length).rest = ':' :: rest := by simp [Cursor.rest_skip, hc]
  have htoken : AtToken (c.skip key.chars.length).rest := by
    rw [hrest]
    intro x hx
    cases hx
    decide
  have hfresh : fresh? (c.skip key.chars.length) (some (spotAt c tokens indent)) =
      some (some (spotAt c tokens indent)) := by
    have hshort := key.short
    simp only [fresh?, spotAt, Cursor.line_skip, Cursor.index_skip, Nat.lt_irrefl, false_or]
    rw [if_neg (by omega)]
  have hcolumn : indent ≤ ((c.skip key.chars.length).column + 0 : Nat) := by
    simp only [Cursor.column_skip]
    omega
  rw [next, settle_spaces 0 rfl htoken hfresh, Cursor.skip_zero, closeTo_of_le hcolumn,
    Option.bind_some, read_colon hrest hgap, valueMark_key hindent, Cursor.skip_skip]

/-- A key with its colon. -/
theorem reaches_key {s : Lexer} {key : Key}
    (hs : s.settle = some (outside c tokens indent indents true none))
    (hc : c.rest = key.chars ++ ':' :: rest) (hindent : indent ≤ c.column)
    (hgap : rest.head? = some ' ' ∨ rest.head? = some '\n') :
    Reaches 2 s (outside (c.skip (key.chars.length + 1))
      (tokens ++ opening indent c.column ++ [.key, key.token, .value]) c.column
        (around indent indents c.column) false none) := by
  have hbehind : (c.skip key.chars.length).gapAt 1 = true := by
    obtain ⟨x, more, rfl, hx⟩ : ∃ x more, rest = x :: more ∧ (x = ' ' ∨ x = '\n') := by
      rcases hgap with hgap | hgap <;>
        obtain ⟨more, rfl⟩ := List.head?_eq_some_iff.mp hgap
      · exact ⟨' ', more, rfl, Or.inl rfl⟩
      · exact ⟨'\n', more, rfl, Or.inr rfl⟩
    rw [Cursor.gapAt, Cursor.peek_second (by rw [Cursor.rest_skip, hc, List.drop_left])]
    rcases hx with rfl | rfl <;> decide
  refine (reaches_next (next_key hs hc hbehind) ?_).trans
    (reaches_next (next_colon hc hbehind hindent) ?_)
  · simp [outside, Key.token]
  · simp [outside]

/-! ## Scalars -/

/-- A scalar that is no key leaves no key spot behind on later lines. -/
theorem exists_rememberKey (c : Cursor) (tokens : List Token) (indents : List Int)
    (keyAllowed : Bool) (hindent : indent < c.column) :
    ∃ spot, (outside c tokens indent indents keyAllowed none).rememberKey =
        some (outside c tokens indent indents keyAllowed spot) ∧
      ∀ later : Cursor, c.line < later.line → fresh? later spot = some none := by
  cases keyAllowed with
  | false => exact ⟨none, rfl, fun _ _ => rfl⟩
  | true =>
    refine ⟨_, rememberKey_outside, fun later hlater => ?_⟩
    have hrequired : (indent == (c.column : Int)) = false := beq_false_of_ne (by omega)
    simp [fresh?, spotAt, hrequired, hlater]

theorem reaches_bare {s : Lexer} (word : Word) {column : Nat}
    (hs : s.settle = some (outside c tokens column indents keyAllowed none))
    (hc : c.rest = word.chars ++ '\n' :: after) (hcolumn : column < c.column)
    (hafter : Ahead column after) :
    ∃ s', Reaches 1 s s' ∧
      Between s' (tokens ++ [.scalar (String.ofList word.chars) true]) column indents after := by
  obtain ⟨n, more, rfl, hn, hmore⟩ := hafter
  obtain ⟨spot, hspot, hstale⟩ := exists_rememberKey c tokens indents keyAllowed
    (Int.ofNat_lt.mpr hcolumn)
  have hmark : c.atDocumentMark = false := by
    have hinner : (c.column == 0) = false := beq_false_of_ne (by omega)
    rw [Cursor.atDocumentMark, hinner, Bool.false_and, Bool.false_and]
  have hword : c.rest = word.chars ++ '\n' :: spaces n ++ more := by simpa using hc
  have hread := readPlain_value (column : Int) hword hmore (Int.ofNat_le.mpr hn) hmark
  have hrest : ((c.skip word.chars.length).skipBreak.skip n).rest = more := by
    rw [Cursor.rest_skip, Cursor.rest_skipBreak (by simp [Cursor.rest_skip, hc]; rfl), drop_spaces]
  have hnext : s.next = some (outside ((c.skip word.chars.length).skipBreak.skip n)
      (tokens ++ [.scalar (String.ofList word.chars) true]) column indents true spot) := by
    rw [next_of_settle hs, read_word hc hmark, plainScalar, hspot]
    simp [outside, inFlow, hread, push]
  generalize hend : (c.skip word.chars.length).skipBreak.skip n = end' at hrest hnext
  have hplace : end'.column = n ∧ end'.line = c.line + 1 := by simp [← hend]
  have htoken : AtToken end'.rest := hrest ▸ hmore
  refine ⟨_, reaches_next hnext (by simp [outside]), n, end', by rw [hrest], htoken, hplace.1, ?_⟩
  rw [settle_spaces 0 rfl htoken (hstale _ (by simp [hplace.2])), Cursor.skip_zero, hplace.1]
  rfl

theorem reaches_quoted {s : Lexer} {quote : Char} (word : Word) {column : Nat}
    (hs : s.settle = some (outside c tokens column indents keyAllowed none))
    (hquote : quote = '\'' ∨ quote = '"')
    (hc : c.rest = quote :: word.chars ++ quote :: '\n' :: after) (hcolumn : column < c.column)
    (hafter : Ahead column after) :
    ∃ s', Reaches 1 s s' ∧
      Between s' (tokens ++ [.scalar (String.ofList word.chars) false]) column indents after := by
  obtain ⟨spot, hspot, hstale⟩ := exists_rememberKey c tokens indents keyAllowed
    (Int.ofNat_lt.mpr hcolumn)
  have hnext : s.next = some (outside (c.skip (word.chars.length + 2))
      (tokens ++ [.scalar (String.ofList word.chars) false]) column indents false spot) := by
    rw [next_of_settle hs, read_quote hquote hc, mayBeKey, hspot]
    simp [outside, quotedScalar, readQuoted_word hquote hc, push]
  have hrest : (c.skip (word.chars.length + 2)).rest = '\n' :: after := by
    simp [Cursor.rest_skip, hc]
  exact ⟨_, reaches_next hnext (by simp [outside]), between_newline hrest hafter hstale⟩

/-- A scalar at the end of a line. -/
theorem reaches_scalar {s : Lexer} (value : Scalar) {column : Nat}
    (hs : s.settle = some (outside c tokens column indents keyAllowed none))
    (hc : c.rest = value.text ++ '\n' :: after) (hcolumn : column < c.column)
    (hafter : Ahead column after) :
    ∃ s', Reaches 1 s s' ∧ Between s' (tokens ++ [value.token]) column indents after := by
  obtain ⟨quoting, word⟩ := value
  cases quoting with
  | bare =>
    exact reaches_bare word hs (by simpa [Scalar.text, Quoting.marks] using hc) hcolumn hafter
  | single =>
    exact reaches_quoted word hs (Or.inl rfl) (by simpa [Scalar.text, Quoting.marks] using hc)
      hcolumn hafter
  | double =>
    exact reaches_quoted word hs (Or.inr rfl) (by simpa [Scalar.text, Quoting.marks] using hc)
      hcolumn hafter

/-! ## Lists -/

theorem ahead_items {column : Nat} (listed : List Scalar) (hafter : Ahead column after) :
    Ahead column (itemsText column listed ++ after) := by
  cases listed with
  | nil => exact hafter
  | cons value listed =>
    refine ⟨column, '-' :: ' ' :: value.text ++ ['\n'] ++ (itemsText column listed ++ after),
      by simp [itemsText], Nat.le_refl _, ?_⟩
    intro x hx
    cases hx
    decide

/-- An item of a list. -/
theorem reaches_item {s : Lexer} (value : Scalar) {column : Nat}
    (hs : s.settle = some (outside c tokens column indents true none))
    (hc : c.rest = '-' :: ' ' :: (value.text ++ '\n' :: after)) (hcolumn : c.column = column)
    (hafter : Ahead column after) :
    ∃ s', Reaches 2 s s' ∧
      Between s' (tokens ++ [.blockEntry, value.token]) column indents after := by
  have hentry : s.next =
      some (outside (c.skip 1) (tokens ++ [.blockEntry]) column indents true none) := by
    rw [next_of_settle hs, read_hyphen hc]
    simp [blockEntry, outside, inFlow, indentTo, hcolumn, forgetKey, take, push]
  have hspace : (c.skip 1).rest = ' ' :: (value.text ++ '\n' :: after) := by
    simp [Cursor.rest_skip, hc]
  have hdeeper : column < (c.skip 1).column := by simp [hcolumn]
  have hword := settle_space (tokens ++ [.blockEntry]) indents true hspace
    (atToken_scalar value _) (Int.ofNat_le.mpr (Nat.le_of_lt hdeeper))
  obtain ⟨s', hscalar, hbetween⟩ := reaches_scalar value hword
    (by simp [Cursor.rest_skip, hc]) (Nat.lt_succ_of_lt hdeeper) hafter
  exact ⟨s', (reaches_next hentry (by simp [outside])).trans hscalar, by simpa using hbetween⟩

theorem reaches_items (listed : List Scalar) {s : Lexer} {tokens : List Token} {column : Nat}
    (hs : Between s tokens column indents (itemsText column listed ++ after))
    (hafter : Ahead column after) :
    ∃ s', Reaches (2 * listed.length) s s' ∧
      Between s' (tokens ++ itemsTokens listed) column indents after := by
  induction listed generalizing s tokens with
  | nil => exact ⟨s, Reaches.refl s, by simpa [itemsTokens, itemsText] using hs⟩
  | cons value listed ih =>
    have hs' : Between s tokens column indents (spaces column ++
        ('-' :: ' ' :: (value.text ++ '\n' :: (itemsText column listed ++ after)))) := by
      simpa [itemsText] using hs
    obtain ⟨c, hc, hcolumn, hsettle⟩ := hs'.settle_eq (by intro x hx; cases hx; decide)
    obtain ⟨s₁, hitem, hbetween⟩ :=
      reaches_item value hsettle hc hcolumn (ahead_items listed hafter)
    obtain ⟨s₂, hitems, hend⟩ := ih hbetween
    have hsteps : 2 * (value :: listed).length = 2 + 2 * listed.length := by
      rw [List.length_cons, Nat.mul_succ, Nat.add_comm]
    refine ⟨s₂, ?_, by simpa [itemsTokens] using hend⟩
    rw [hsteps]
    exact hitem.trans hitems

theorem length_itemsText (column : Nat) (listed : List Scalar) :
    2 * listed.length ≤ (itemsText column listed).length := by
  induction listed with
  | nil => simp
  | cons value listed ih =>
    simp only [itemsText, List.flatMap_cons, List.length_append, List.length_cons] at ih ⊢
    omega

/-! ## Blocks and entries -/

/-- The reader finds the tokens of what stands behind a key. -/
def ReadsBlock (block : Block) : Prop :=
  ∀ {c : Cursor} {tokens : List Token} {column : Nat} {indents : List Int} {after : List Char},
    c.rest = block.text column ++ after → column < c.column → Ahead column after →
    ∃ n s', n ≤ (block.text column).length ∧
      Reaches n (outside c tokens column indents false none) s' ∧
      Between s' (tokens ++ block.tokens) column indents after

/-- The reader finds the tokens of some entries of a mapping. -/
def ReadsEntries (entries : List (Key × Block)) : Prop :=
  ∀ {s : Lexer} {tokens : List Token} {column : Nat} {indents : List Int} {after : List Char},
    Between s tokens column indents (entriesText column entries ++ after) → Ahead column after →
    ∃ n s', n ≤ (entriesText column entries).length ∧ Reaches n s s' ∧
      Between s' (tokens ++ entriesTokens entries) column indents after

theorem ahead_entries {column : Nat} (entries : List (Key × Block)) (hafter : Ahead column after) :
    Ahead column (entriesText column entries ++ after) := by
  match entries with
  | [] => simpa [entriesText] using hafter
  | (key, block) :: rest =>
    exact ⟨column, key.chars ++ (':' :: block.text column ++ (entriesText column rest ++ after)),
      by simp [entriesText], Nat.le_refl _, atToken_word key.toWord _⟩

/-- The entries of a mapping from the first key on, which opens the mapping if it stands deeper
than the indentation. -/
theorem reaches_entries {s : Lexer} {key : Key} {block : Block} {entries : List (Key × Block)}
    (hblock : ReadsBlock block) (hentries : ReadsEntries entries)
    (hs : s.settle = some (outside c tokens indent indents true none))
    (hc : c.rest = key.chars ++
      ':' :: (block.text c.column ++ (entriesText c.column entries ++ after)))
    (hindent : indent ≤ c.column) (hafter : Ahead c.column after) :
    ∃ n s', n ≤ (key.chars ++ ':' :: (block.text c.column ++ entriesText c.column entries)).length ∧
      Reaches n s s' ∧
      Between s' (tokens ++ opening indent c.column ++ entriesTokens ((key, block) :: entries))
        c.column (around indent indents c.column) after := by
  have hgap : (block.text c.column ++ (entriesText c.column entries ++ after)).head? = some ' ' ∨
      (block.text c.column ++ (entriesText c.column entries ++ after)).head? = some '\n' := by
    cases block <;> simp [Block.text]
  have hkey := reaches_key hs hc hindent hgap
  obtain ⟨m, s₁, hm, hvalue, hbetween⟩ := hblock (c := c.skip (key.chars.length + 1))
    (by simp [Cursor.rest_skip, hc]) (by simp) (ahead_entries entries hafter)
  obtain ⟨n, s₂, hn, hmore, hend⟩ := hentries hbetween hafter
  refine ⟨2 + m + n, s₂, ?_, (hkey.trans hvalue).trans hmore, by simpa [entriesTokens] using hend⟩
  have hfilled : 0 < key.chars.length := List.length_pos_iff.mpr key.filled
  simp only [List.length_append, List.length_cons]
  omega

theorem readsBlock_scalar (value : Scalar) : ReadsBlock (.scalar value) := by
  intro c tokens column indents after hc hcolumn hafter
  have hspace : c.rest = ' ' :: (value.text ++ '\n' :: after) := by simpa [Block.text] using hc
  have hs := settle_space tokens indents false hspace (atToken_scalar value _)
    (Int.ofNat_le.mpr (Nat.le_of_lt hcolumn))
  obtain ⟨s', hreaches, hbetween⟩ := reaches_scalar value hs (by simp [Cursor.rest_skip, hspace])
    (Nat.lt_succ_of_lt hcolumn) hafter
  exact ⟨1, s', by simp [Block.text], hreaches, by simpa [Block.tokens] using hbetween⟩

theorem readsBlock_items (listed : List Scalar) : ReadsBlock (.items listed) := by
  intro c tokens column indents after hc hcolumn hafter
  have hline : c.rest = '\n' :: (itemsText column listed ++ after) := by
    simpa [Block.text] using hc
  have hstart : Between (outside c tokens column indents false none) tokens column indents
      (itemsText column listed ++ after) :=
    between_newline hline (ahead_items listed hafter) fun _ _ => rfl
  obtain ⟨s', hreaches, hbetween⟩ := reaches_items listed hstart hafter
  refine ⟨_, s', ?_, hreaches, by simpa [Block.tokens] using hbetween⟩
  have hlength := length_itemsText column listed
  simp only [Block.text, List.length_cons]
  omega

theorem readsBlock_nothing (deeper : Nat) : ReadsBlock (.mapping deeper []) := by
  intro c tokens column indents after hc hcolumn hafter
  have hline : c.rest = '\n' :: after := by simpa [Block.text, entriesText] using hc
  have hbetween : Between (outside c tokens column indents false none) tokens column indents
      after :=
    between_newline hline hafter fun _ _ => rfl
  exact ⟨0, _, Nat.zero_le _, Reaches.refl _, by simpa [Block.tokens] using hbetween⟩

theorem readsEntries_nil : ReadsEntries [] := by
  intro s tokens column indents after hs hafter
  exact ⟨0, s, Nat.zero_le _, Reaches.refl s, by simpa [entriesText, entriesTokens] using hs⟩

theorem readsEntries_cons {key : Key} {block : Block} {rest : List (Key × Block)}
    (hblock : ReadsBlock block) (hrest : ReadsEntries rest) :
    ReadsEntries ((key, block) :: rest) := by
  intro s tokens column indents after hs hafter
  have hs' : Between s tokens column indents (spaces column ++
      (key.chars ++ ':' :: (block.text column ++ (entriesText column rest ++ after)))) := by
    simpa [entriesText] using hs
  obtain ⟨c, hc, rfl, hsettle⟩ := hs'.settle_eq (atToken_word key.toWord _)
  obtain ⟨n, s', hn, hreaches, hbetween⟩ :=
    reaches_entries hblock hrest hsettle hc (Int.le_refl _) hafter
  have hopen : opening c.column c.column = [] ∧ around c.column indents c.column = indents := by
    simp [opening, around]
  rw [hopen.1, hopen.2, List.append_nil] at hbetween
  refine ⟨n, s', ?_, hreaches, hbetween⟩
  simp only [entriesText, List.length_append, List.length_cons] at hn ⊢
  omega

theorem readsBlock_mapping {deeper : Nat} {key : Key} {block : Block} {rest : List (Key × Block)}
    (hblock : ReadsBlock block) (hrest : ReadsEntries rest) :
    ReadsBlock (.mapping deeper ((key, block) :: rest)) := by
  intro c tokens column indents after hc hcolumn hafter
  obtain ⟨inner, hinner⟩ : ∃ inner, inner = column + 1 + deeper := ⟨_, rfl⟩
  have hdeeper : column < inner := by omega
  have hline : c.rest = '\n' :: spaces inner ++
      (key.chars ++ ':' :: (block.text inner ++ (entriesText inner rest ++ after))) := by
    simpa [Block.text, entriesText, hinner] using hc
  have hsettle : (outside c tokens column indents false none).settle =
      some (outside (c.skipBreak.skip inner) tokens column indents true none) := by
    rw [settle_newline hline (atToken_word key.toWord _) rfl, closeTo_of_le (by omega)]
  have hstart : (c.skipBreak.skip inner).column = inner := by simp
  have hrest' : (c.skipBreak.skip inner).rest =
      key.chars ++ ':' :: (block.text inner ++ (entriesText inner rest ++ after)) := by
    rw [Cursor.rest_skip, Cursor.rest_skipBreak hline]
    exact drop_spaces _ _
  generalize c.skipBreak.skip inner = start at hsettle hstart hrest'
  subst hstart
  obtain ⟨n, s', hn, hreaches, hbetween⟩ := reaches_entries hblock hrest hsettle hrest' (by omega)
    (hafter.mono (Nat.le_of_lt hdeeper))
  have hopen : opening column start.column = [.blockMapping] ∧
      around column indents start.column = (column : Int) :: indents := by
    simp [opening, around, hdeeper]
  rw [hopen.1, hopen.2] at hbetween
  refine ⟨n, s', ?_, hreaches, by simpa [Block.tokens] using hbetween.close hafter hdeeper⟩
  simp only [Block.text, ← hinner, entriesText, List.length_append, List.length_cons] at hn ⊢
  omega

mutual

/-- The reader finds the tokens of every block. -/
theorem readsBlock : ∀ block : Block, ReadsBlock block
  | .scalar value => readsBlock_scalar value
  | .items listed => readsBlock_items listed
  | .mapping deeper [] => readsBlock_nothing deeper
  | .mapping _ ((_, block) :: rest) => readsBlock_mapping (readsBlock block) (readsEntries rest)

/-- The reader finds the tokens of all entries. -/
theorem readsEntries : ∀ entries : List (Key × Block), ReadsEntries entries
  | [] => readsEntries_nil
  | (_, block) :: rest => readsEntries_cons (readsBlock block) (readsEntries rest)

end

/-! ## Whole texts -/

/-- At the end of the text the outermost mapping is closed, and then the stream. -/
theorem Between.next_eq {s : Lexer} (h : Between s tokens (0 : Nat) [-1] []) :
    ∃ c, s.next =
      some (outside c (tokens ++ [.blockEnd, .streamEnd]) (-1) [] false none) := by
  obtain ⟨n, c, hend, -, -, hs⟩ := h
  obtain ⟨hspaces, hrest⟩ := List.append_eq_nil_iff.mp hend.symm
  obtain rfl : n = 0 := by simpa [spaces] using hspaces
  rw [closeTo_of_le (Int.le_refl _)] at hs
  refine ⟨c, ?_⟩
  rw [next_of_settle hs, read_end hrest, atStreamEnd, closeTo_of_lt (by omega),
    closeTo_of_le (Int.le_refl _)]
  simp [forgetKey, outside, push]

theorem run_entries (key : Key) (block : Block) (rest : List (Key × Block)) {fuel : Nat}
    (hfuel : (entriesText 0 ((key, block) :: rest)).length < fuel) :
    run fuel (start (entriesText 0 ((key, block) :: rest))) =
      some (.blockMapping :: entriesTokens ((key, block) :: rest) ++ [.blockEnd, .streamEnd]) := by
  generalize htext : entriesText 0 ((key, block) :: rest) = text at hfuel ⊢
  have hline : text = key.chars ++ ':' :: (block.text 0 ++ (entriesText 0 rest ++ [])) := by
    simp [← htext, entriesText, spaces]
  have hsettle : (start text).settle = some (outside (Cursor.start text) [] (-1) [] true none) := by
    have hs : start text = outside (Cursor.start text) [] (-1) [] true none := rfl
    rw [hs, settle_spaces 0 rfl (hline ▸ atToken_word key.toWord _) rfl,
      closeTo_of_le (by simp [Cursor.start]), Cursor.skip_zero]
  obtain ⟨n, s, hn, hreaches, hbetween⟩ := reaches_entries (readsBlock block) (readsEntries rest)
    hsettle hline (by simp [Cursor.start]) ⟨0, [], rfl, Nat.zero_le _, by simp [AtToken]⟩
  have hend : Between s (.blockMapping :: entriesTokens ((key, block) :: rest)) (0 : Nat) [-1]
      [] := by
    simpa [opening, around, Cursor.start] using hbetween
  generalize Token.blockMapping :: entriesTokens ((key, block) :: rest) = tokens at hend ⊢
  obtain ⟨c, hlast⟩ := hend.next_eq
  have hsteps : n < fuel := by
    rw [hline, List.append_nil] at hfuel
    exact Nat.lt_of_le_of_lt hn hfuel
  obtain ⟨spare, rfl⟩ := Nat.exists_eq_add_of_lt hsteps
  rw [Nat.add_assoc, hreaches, run, hlast]
  simp [outside]

end Lexer

/-- The characters that layouts are written with. -/
def textChars : List Char :=
  wordChars ++ [' ', '\n', ':', '\'', '"']

theorem textChar_facts : ∀ x ∈ textChars,
    isAllowed x = true ∧ x ≠ '\uFEFF' ∧ x ≠ '!' ∧ x ≠ '\r' :=
  List.all_iff_forall_prop.mp (by decide +kernel)

theorem marks_subset_textChars :
    [' ', '\n', ':', '-', '\'', '"'] ⊆ textChars := by
  decide +kernel

theorem mem_textChars_word {word : Word} {x : Char} (hx : x ∈ word.chars) : x ∈ textChars :=
  List.mem_append_left _ (word.plain x hx)

theorem mem_textChars_spaces {n : Nat} {x : Char} (hx : x ∈ spaces n) : x ∈ textChars := by
  rw [List.eq_of_mem_replicate hx]
  exact marks_subset_textChars (by simp)

theorem mem_textChars_scalar {value : Scalar} {x : Char} (hx : x ∈ value.text) :
    x ∈ textChars := by
  have hmarks : value.quoting.marks ⊆ textChars := by
    cases value.quoting with
    | bare => exact List.nil_subset _
    | single => exact List.cons_subset.mpr ⟨marks_subset_textChars (by simp), List.nil_subset _⟩
    | double => exact List.cons_subset.mpr ⟨marks_subset_textChars (by simp), List.nil_subset _⟩
  simp only [Scalar.text, List.mem_append] at hx
  rcases hx with (hx | hx) | hx
  · exact hmarks hx
  · exact mem_textChars_word hx
  · exact hmarks hx

mutual

theorem Block.mem_textChars {x : Char} : ∀ (block : Block) (column : Nat),
    x ∈ block.text column → x ∈ textChars
  | .scalar value, column, hx => by
    simp only [Block.text, List.mem_append, List.mem_cons, List.not_mem_nil, or_false] at hx
    rcases hx with (rfl | hx) | rfl
    · exact marks_subset_textChars (by simp)
    · exact mem_textChars_scalar hx
    · exact marks_subset_textChars (by simp)
  | .items listed, column, hx => by
    simp only [Block.text, itemsText, List.mem_cons, List.mem_flatMap, List.mem_append,
      List.not_mem_nil, or_false] at hx
    rcases hx with rfl | ⟨value, -, (hx | rfl | rfl | hx) | rfl⟩
    · exact marks_subset_textChars (by simp)
    · exact mem_textChars_spaces hx
    · exact marks_subset_textChars (by simp)
    · exact marks_subset_textChars (by simp)
    · exact mem_textChars_scalar hx
    · exact marks_subset_textChars (by simp)
  | .mapping deeper entries, column, hx => by
    simp only [Block.text, List.mem_cons] at hx
    rcases hx with rfl | hx
    · exact marks_subset_textChars (by simp)
    · exact entries_mem_textChars entries _ hx

theorem entries_mem_textChars {x : Char} : ∀ (entries : List (Key × Block)) (column : Nat),
    x ∈ entriesText column entries → x ∈ textChars
  | [], _, hx => by simp [entriesText] at hx
  | (key, block) :: rest, column, hx => by
    simp only [entriesText, List.mem_append, List.mem_cons] at hx
    rcases hx with ((hx | hx) | rfl | hx) | hx
    · exact mem_textChars_spaces hx
    · exact mem_textChars_word hx
    · exact marks_subset_textChars (by simp)
    · exact Block.mem_textChars block column hx
    · exact entries_mem_textChars rest column hx

end

theorem exists_itemsText_eq (column : Nat) (listed : List Scalar) :
    ∃ body, '\n' :: itemsText column listed = body ++ ['\n'] := by
  rcases List.eq_nil_or_concat listed with rfl | ⟨listed, value, rfl⟩
  · exact ⟨[], rfl⟩
  · exact ⟨'\n' :: (itemsText column listed ++ (spaces column ++ '-' :: ' ' :: value.text)),
      by simp [itemsText]⟩

mutual

/-- What stands behind a key ends a line. -/
theorem Block.exists_text_eq : ∀ (block : Block) (column : Nat),
    ∃ body, block.text column = body ++ ['\n']
  | .scalar value, _ => ⟨' ' :: value.text, by simp [Block.text]⟩
  | .items listed, column => exists_itemsText_eq column listed
  | .mapping deeper entries, column => exists_entriesText_eq entries (column + 1 + deeper)

/-- The entries of a mapping end a line, unless there are none behind the line end before them. -/
theorem exists_entriesText_eq : ∀ (entries : List (Key × Block)) (column : Nat),
    ∃ body, '\n' :: entriesText column entries = body ++ ['\n']
  | [], _ => ⟨[], rfl⟩
  | (key, block) :: rest, column => by
    obtain ⟨front, hfront⟩ := Block.exists_text_eq block column
    obtain ⟨back, hback⟩ := exists_entriesText_eq rest column
    exact ⟨'\n' :: (spaces column ++ key.chars ++ ':' :: (front ++ back)),
      by simp [entriesText, hfront, hback]⟩

end

/-- The tokens of the text of a mapping. -/
theorem tokens?_entries (key : Key) (block : Block) (rest : List (Key × Block)) :
    tokens? (entriesText 0 ((key, block) :: rest)) =
      some (.blockMapping :: entriesTokens ((key, block) :: rest) ++ [.blockEnd, .streamEnd]) := by
  have hchars (x : Char) := entries_mem_textChars (x := x) ((key, block) :: rest) 0
  have hrun := Lexer.run_entries key block rest (Nat.lt_add_of_pos_right (Nat.succ_pos 1))
  generalize entriesText 0 ((key, block) :: rest) = text at hchars hrun ⊢
  have hallowed : text.all isAllowed = true :=
    List.all_eq_true.mpr fun x hx => (textChar_facts x (hchars x hx)).1
  unfold tokens?
  rw [if_pos hallowed]
  split
  · exact absurd rfl (textChar_facts _ (hchars _ List.mem_cons_self)).2.1
  · exact hrun

end SdkEvidence.Yaml
