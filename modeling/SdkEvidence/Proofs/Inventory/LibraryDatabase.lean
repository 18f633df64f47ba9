import SdkEvidence.Inventory.LibraryDatabase
import SdkEvidence.Proofs.Text.Blank

/-!
# The first row for a library

The rows of a text are those of the pieces between its line feeds, since a carriage return is a
blank and blanks at the ends of a line belong to no field (`rows_read`, `row?_eq_some_iff`). So a
lookup answers with the first such line whose name fits, and looks up what is appended to a text
only where the text itself has no answer (`lookup_first`).
-/
namespace SdkEvidence.LibraryDatabase

open Text

/-! ## What a line says -/

/-- A field of a line without the blanks around it; a field that is missing is blank. -/
def fieldOf (line : List Char) (n : ℕ) : List Char :=
  trim ((line.splitOn '|').getD n [])

/-- A field that is not blank. -/
def filled? (field : List Char) : Option String :=
  if field = [] then none else some (String.ofList field)

/-- The row that a line with a name holds. Every field keeps its place, whether the ones before it
are blank or not. -/
def rowOf (line : List Char) : LibraryRow :=
  { name := String.ofList (fieldOf line 0)
    description := filled? (fieldOf line 1)
    vendor := filled? (fieldOf line 2)
    version := filled? (fieldOf line 3) }

/-- A line has a row if it is neither blank nor a comment and its first field is not blank. -/
structure HasRow (line : List Char) : Prop where
  filled : ∃ c ∈ line, isBlank c = false
  uncommented : (trim line).head? ≠ some '#'
  named : fieldOf line 0 ≠ []

/-- A line is for a library whose name starts with its first field, in any case. -/
structure Answers (library : String) (line : List Char) : Prop where
  hasRow : HasRow line
  fits : lower (fieldOf line 0) <+: lower library.toList

/-! ## The fields of a trimmed line -/

theorem bar_notMem_of_blank {blanks : List Char} (h : ∀ c ∈ blanks, isBlank c = true) :
    '|' ∉ blanks := by
  intro hmem
  have hbar := h '|' hmem
  simp [isBlank] at hbar

theorem fieldsOf_blanks_append {blanks : List Char} (h : ∀ c ∈ blanks, isBlank c = true)
    (line : List Char) : fieldsOf (blanks ++ line) = fieldsOf line := by
  have hblanks := bar_notMem_of_blank h
  rw [fieldsOf, fieldsOf]
  by_cases hbar : '|' ∈ line
  · obtain ⟨first, rest, rfl, hfirst⟩ := List.eq_append_cons_of_mem hbar
    rw [← List.append_assoc, List.splitOn_append_cons_self, List.splitOn_append_cons_self,
      splitOn_of_notMem hfirst, splitOn_of_notMem (by simp [hblanks, hfirst])]
    simp [trim_blanks_append h]
  · rw [splitOn_of_notMem hbar, splitOn_of_notMem (by simp [hblanks, hbar])]
    simp [trim_blanks_append h]

theorem fieldsOf_append_blanks (line : List Char) {blanks : List Char}
    (h : ∀ c ∈ blanks, isBlank c = true) : fieldsOf (line ++ blanks) = fieldsOf line := by
  have hblanks := bar_notMem_of_blank h
  -- along the bars: only the piece after the last one meets the blanks
  induction hlength : line.length using Nat.strong_induction_on generalizing line with
  | _ n ih =>
    by_cases hbar : '|' ∈ line
    · obtain ⟨first, rest, rfl, -⟩ := List.eq_append_cons_of_mem hbar
      have hrest := ih rest.length (by simp at hlength; omega) rest rfl
      rw [fieldsOf, fieldsOf] at hrest ⊢
      rw [List.append_assoc, List.cons_append, List.splitOn_append_cons_self,
        List.splitOn_append_cons_self, List.map_append, List.map_append, hrest]
    · rw [fieldsOf, fieldsOf, splitOn_of_notMem hbar,
        splitOn_of_notMem (by simp [hblanks, hbar])]
      simp [trim_append_blanks _ h]

theorem fieldsOf_trim (line : List Char) : fieldsOf (trim line) = fieldsOf line := by
  obtain ⟨before, after, hline, hbefore, hafter⟩ := exists_blanks_trim line
  conv_rhs => rw [hline, List.append_assoc]
  rw [fieldsOf_blanks_append hbefore, fieldsOf_append_blanks _ hafter]

theorem field?_fieldsOf (line : List Char) (n : ℕ) :
    field? (fieldsOf line) n = filled? (fieldOf line n) := by
  rw [field?, fieldsOf, List.getElem?_map, fieldOf, List.getD_eq_getElem?_getD]
  cases (line.splitOn '|')[n]? with
  | none => rfl
  | some field => simp [filled?, List.isEmpty_iff]

/-! ## Rows -/

theorem hasRow_iff {line : List Char} : HasRow line ↔
    ¬(trim line = [] ∨ (trim line).head? = some '#') ∧ fieldOf line 0 ≠ [] := by
  rw [trim_eq_nil_iff]
  constructor
  · rintro ⟨⟨c, hc, hfilled⟩, huncommented, hnamed⟩
    refine ⟨not_or.mpr ⟨fun hblank => ?_, huncommented⟩, hnamed⟩
    simp [hblank c hc] at hfilled
  · rintro ⟨hline, hnamed⟩
    obtain ⟨hfilled, huncommented⟩ := not_or.mp hline
    exact ⟨by simpa using hfilled, huncommented, hnamed⟩

theorem row?_eq_some_iff {line : List Char} {row : LibraryRow} :
    row? line = some row ↔ HasRow line ∧ row = rowOf line := by
  simp only [row?, fieldsOf_trim, field?_fieldsOf, List.isEmpty_iff]
  rw [hasRow_iff]
  split
  next hline => simp [hline]
  next hline =>
    by_cases hnamed : fieldOf line 0 = []
    · simp [filled?, hnamed]
    · have hname : filled? (fieldOf line 0) = some (String.ofList (fieldOf line 0)) :=
        if_neg hnamed
      rw [hname, Option.map_some, Option.some_inj, and_iff_right ⟨hline, hnamed⟩]
      exact eq_comm

/-- Blanks around a line do not change its row. -/
theorem row?_trim (line : List Char) : row? (trim line) = row? line := by
  rw [row?, row?, trim_trim]

theorem row?_dropCarriageReturn (line : List Char) :
    row? (dropCarriageReturn line) = row? line := by
  rw [dropCarriageReturn]
  split
  next hlast =>
    obtain ⟨front, rfl⟩ := List.getLast?_eq_some_iff.mp hlast
    rw [List.dropLast_concat, ← row?_trim (front ++ ['\r']),
      trim_append_blanks front (List.forall_mem_singleton.mpr (by decide)), row?_trim]
  next => rfl

theorem filterMap_row?_linesOfPieces (pieces : List (List Char)) :
    (linesOfPieces pieces).filterMap row? = pieces.filterMap row? := by
  have hempty : row? [] = none := rfl
  induction pieces with
  | nil => rfl
  | cons piece more ih =>
    cases more with
    | nil =>
      rw [linesOfPieces]
      split
      next hnil => simp [List.isEmpty_iff.mp hnil, hempty]
      next => rfl
    | cons next more =>
      rw [linesOfPieces, List.filterMap_cons, List.filterMap_cons, row?_dropCarriageReturn, ih]
      simp

/-- The rows of a text are those of what stands between its line feeds. -/
theorem rows_read (text : String) :
    (read text).rows = (text.toList.splitOn '\n').filterMap row? :=
  filterMap_row?_linesOfPieces _

theorem rows_read_append (front rest : String) :
    (read (front ++ "\n" ++ rest)).rows = (read (front ++ "\n")).rows ++ (read rest).rows := by
  have hend : (front ++ "\n").toList = front.toList ++ '\n' :: [] := by simp
  have htext : (front ++ "\n" ++ rest).toList = front.toList ++ '\n' :: rest.toList := by simp
  have hempty : ([] : List Char).splitOn '\n' = [[]] ∧ row? [] = none := ⟨rfl, rfl⟩
  rw [rows_read, rows_read, rows_read, hend, htext, List.splitOn_append_cons_self,
    List.splitOn_append_cons_self, List.filterMap_append, List.filterMap_append, hempty.1,
    List.filterMap_cons_none hempty.2, List.filterMap_nil, List.append_nil]

/-! ## Lookups -/

variable {library : String} {line : List Char} {row : LibraryRow}

theorem answers_iff :
    (row? line).any (fits (lower library.toList)) = true ↔ Answers library line := by
  simp only [Option.any_eq_true, row?_eq_some_iff, and_assoc, fits, List.isPrefixOf_iff_prefix]
  constructor
  · rintro ⟨row, hrow, rfl, hfits⟩
    exact ⟨hrow, by simpa [rowOf] using hfits⟩
  · rintro ⟨hrow, hfits⟩
    exact ⟨rowOf line, hrow, rfl, by simpa [rowOf] using hfits⟩

theorem lookup_read (text library : String) : lookup (read text) library
    = ((text.toList.splitOn '\n').find? fun line =>
        (row? line).any (fits (lower library.toList))).bind row? := by
  rw [lookup, rows_read, List.find?_filterMap]

theorem lookup_eq_some_iff {text : String} : lookup (read text) library = some row
    ↔ ∃ before line after, text.toList.splitOn '\n' = before ++ line :: after ∧
        Answers library line ∧ (∀ other ∈ before, ¬Answers library other) ∧ row = rowOf line := by
  simp only [lookup_read, Option.bind_eq_some_iff, List.find?_eq_some_iff_append, answers_iff,
    Bool.not_eq_true', ← Bool.not_eq_true, row?_eq_some_iff]
  constructor
  · rintro ⟨line, ⟨hanswers, before, after, hplace, hfirst⟩, -, hrow⟩
    exact ⟨before, line, after, hplace, hanswers, hfirst, hrow⟩
  · rintro ⟨before, line, after, hplace, hanswers, hfirst, hrow⟩
    exact ⟨line, ⟨hanswers, before, after, hplace, hfirst⟩, hanswers.hasRow, hrow⟩

theorem lookup_eq_none_iff {text : String} : lookup (read text) library = none
    ↔ ∀ line ∈ text.toList.splitOn '\n', ¬Answers library line := by
  simp only [lookup, List.find?_eq_none, rows_read, List.mem_filterMap, ← answers_iff,
    Option.any_eq_true, not_exists, not_and, forall_exists_index, and_imp]
  exact ⟨fun h line hline row => h row line hline, fun h row line hline => h line hline row⟩

theorem lookup_append (front rest library : String) :
    lookup (read (front ++ "\n" ++ rest)) library
      = (lookup (read (front ++ "\n")) library).or (lookup (read rest) library) := by
  rw [lookup, rows_read_append, List.find?_append]
  rfl

/-- The answer for a library is what the first line says that has a row whose name starts the name
of the library, in any case: its fields, each by its own place. Rows that are appended to a text
after a line end answer only where the text has no answer. -/
theorem lookup_first (library : String) :
    (∀ text row, lookup (read text) library = some row
      ↔ ∃ before line after, text.toList.splitOn '\n' = before ++ line :: after ∧
          Answers library line ∧ (∀ other ∈ before, ¬Answers library other) ∧
          row = rowOf line) ∧
    (∀ text, lookup (read text) library = none
      ↔ ∀ line ∈ text.toList.splitOn '\n', ¬Answers library line) ∧
    ∀ front rest, lookup (read (front ++ "\n" ++ rest)) library
      = (lookup (read (front ++ "\n")) library).or (lookup (read rest) library) :=
  ⟨fun _ _ => lookup_eq_some_iff, fun _ => lookup_eq_none_iff,
    fun front rest => lookup_append front rest library⟩

/-- A comment, a row without a name and carriage returns, and fields that are blank or too many. -/
example : lookup (read "#libx|no\r\n|no\r\n LibX | | V |\t|5\r\nlibx.so|later") "libx.so"
    = some { name := "LibX", description := none, vendor := some "V", version := none } := by
  decide +kernel

end SdkEvidence.LibraryDatabase
