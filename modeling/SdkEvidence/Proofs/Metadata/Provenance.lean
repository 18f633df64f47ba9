import Mathlib.Data.Bool.AllAny
import Mathlib.Data.Set.List
import SdkEvidence.Metadata.Provenance
import SdkEvidence.Proofs.Bytes.Reading
import SdkEvidence.Proofs.Dictionary
import SdkEvidence.Proofs.Text.Blank
import SdkEvidence.Proofs.Text.Line

/-!
# The main section of an archive's manifest

The attributes of the section are written in lines of at most seventy-two bytes, and what does not
fit goes on in lines that start with a space. Each line is read for itself (`mainSection_eq`), so
only attributes that fit into one line are read as they are (`collect_main_section`).
-/
namespace SdkEvidence.Provenance

open Utf8

/-! ## Sections -/

/-- An attribute: a name of letters, digits, hyphens and underscores, and a value in one line. -/
structure Header where
  name : List Char
  value : List Char
  starts : ∃ c ∈ name.head?, c.isAlphanum = true
  spelled : ∀ c ∈ name, c.isAlphanum = true ∨ c = '-' ∨ c = '_'
  short : name.length ≤ 70
  oneLine : ∀ c ∈ value, c ≠ '\n' ∧ c ≠ '\r'

/-- The attribute in one line of any length. -/
def Header.text (header : Header) : List Char :=
  header.name ++ ':' :: ' ' :: header.value

/-- The lines that bytes go on in: a space and up to seventy-one of the bytes each. -/
def continued : List UInt8 → List (List UInt8)
  | [] => []
  | b :: rest => (0x20 :: b :: rest.take 70) :: continued (rest.drop 70)
termination_by bytes => bytes.length
decreasing_by simp only [List.length_drop, List.length_cons]; omega

/-- The lines of an attribute. None has more than seventy-two bytes. -/
def Header.lines (header : Header) : List (List UInt8) :=
  (bytesOf header.text).take 72 :: continued ((bytesOf header.text).drop 72)

/-- How lines end. -/
inductive LineEnd where
  | feed
  | returnAndFeed
  deriving DecidableEq, Repr

/-- The characters of the end of a line. -/
def LineEnd.chars : LineEnd → List Char
  | feed => ['\n']
  | returnAndFeed => ['\r', '\n']

/-- The bytes of a manifest: the lines of the attributes of its main section, a blank line and
whatever follows. -/
def manifestBytes (headers : List Header) (ending : LineEnd) (rest : List UInt8) : List UInt8 :=
  (headers.flatMap Header.lines).flatMap (fun line => line ++ bytesOf ending.chars) ++
    (bytesOf ending.chars ++ rest)

/-! ## Lines of texts -/

/-- An attribute that is not cut within a character, with what stands in its lines. -/
structure Shown where
  header : Header
  head : List Char
  pieces : List (List Char)
  lines : header.lines =
    bytesOf (header.name ++ ':' :: ' ' :: head) :: pieces.map fun piece => bytesOf (' ' :: piece)

/-- The lines of the attribute as texts. -/
def Shown.texts (shown : Shown) : List (List Char) :=
  (shown.header.name ++ ':' :: ' ' :: shown.head) :: shown.pieces.map (' ' :: ·)

/-- A line is not blank. -/
def isFilled (line : List Char) : Bool :=
  !(Text.trim line).isEmpty

/-- What is taken from the lines of an attribute: its name with what stands in the first line, and
what the lines up to a blank one look like by themselves. -/
def Shown.pairs (shown : Shown) : List (String × String) :=
  (if skippedKeys.contains (String.ofList shown.header.name) then []
    else [(String.ofList shown.header.name, String.ofList (Text.trim shown.head))]) ++
    (shown.pieces.takeWhile isFilled).filterMap ofLine?

/-- What is taken from attributes up to the first line that is blank. -/
def taken : List Shown → List (String × String)
  | [] => []
  | shown :: rest => shown.pairs ++ if shown.pieces.all isFilled then taken rest else []

/-! ## What is decoded -/

theorem newline_bytes : String.utf8EncodeChar '\n' = [0x0A] := by decide

theorem return_bytes : String.utf8EncodeChar '\r' = [0x0D] := by decide

/-- A line is cut off the encoding of a text at its end. -/
theorem exists_of_line {line rest : List UInt8} {ending : LineEnd} {text : List Char}
    (h : line ++ (bytesOf ending.chars ++ rest) = bytesOf text) :
    ∃ first more, line = bytesOf first ∧ rest = bytesOf more := by
  cases ending with
  | feed =>
    obtain ⟨first, more, -, hline, hrest⟩ := exists_of_append_bytesOf newline_bytes
      (show line ++ 0x0A :: rest = bytesOf text from h)
    exact ⟨first, more, hline, hrest⟩
  | returnAndFeed =>
    obtain ⟨first, more, -, hline, hrest⟩ := exists_of_append_bytesOf return_bytes
      (show line ++ 0x0D :: (bytesOf ['\n'] ++ rest) = bytesOf text from h)
    obtain ⟨more, -, hrest⟩ := exists_of_bytesOf_append hrest
    exact ⟨first, more, hline, hrest⟩

/-- Lines that encode a text together with what follows encode a text each. -/
theorem exists_texts {lines : List (List UInt8)} {ending : LineEnd} {rest : List UInt8}
    {text : List Char}
    (h : lines.flatMap (fun line => line ++ bytesOf ending.chars) ++ rest = bytesOf text) :
    (∀ line ∈ lines, ∃ text, line = bytesOf text) ∧ ∃ more, rest = bytesOf more := by
  induction lines generalizing text with
  | nil => exact ⟨by simp, text, h⟩
  | cons line lines ih =>
    rw [List.flatMap_cons, List.append_assoc, List.append_assoc] at h
    obtain ⟨first, more, hline, hmore⟩ := exists_of_line h
    obtain ⟨hlines, hrest⟩ := ih hmore
    exact ⟨List.forall_mem_cons.mpr ⟨⟨first, hline⟩, hlines⟩, hrest⟩

/-- Letters and digits as numbers. -/
theorem toNat_of_isAlphanum {c : Char} (h : c.isAlphanum = true) :
    (65 ≤ c.toNat ∧ c.toNat ≤ 90 ∨ 97 ≤ c.toNat ∧ c.toNat ≤ 122) ∨
      48 ≤ c.toNat ∧ c.toNat ≤ 57 := by
  have hranges : (decide (65 ≤ c.val ∧ c.val ≤ 90)
      || decide (97 ≤ c.val) && decide (c.val ≤ 122)
      || decide (48 ≤ c.val) && decide (c.val ≤ 57)) = true := h
  simp only [Bool.or_eq_true, Bool.and_eq_true, decide_eq_true_eq,
    UInt32.le_iff_toNat_le] at hranges
  exact hranges

theorem Header.toNat_lt (header : Header) : ∀ c ∈ header.name ++ [':', ' '], c.toNat < 128 := by
  intro c hc
  rcases List.mem_append.mp hc with hc | hc
  · rcases header.spelled c hc with hname | rfl | rfl
    · have hrange := toNat_of_isAlphanum hname
      omega
    · decide
    · decide
  · simp only [List.mem_cons, List.not_mem_nil, or_false] at hc
    rcases hc with rfl | rfl <;> decide

theorem Header.name_unbroken (header : Header) :
    ∀ c ∈ header.name, c ≠ ':' ∧ Text.isBlank c = false := by
  intro c hc
  rcases header.spelled c hc with hname | rfl | rfl
  · have hrange := toNat_of_isAlphanum hname
    constructor
    · rintro rfl
      exact absurd hname (by decide)
    · simp only [Text.isBlank, Bool.or_eq_false_iff, Bool.and_eq_false_iff, decide_eq_false_iff_not,
        beq_eq_false_iff_ne]
      omega
  · decide
  · decide

theorem Header.text_eq (header : Header) :
    header.text = (header.name ++ [':', ' ']) ++ header.value := by
  simp [Header.text]

theorem exists_of_mem_continued {bytes line : List UInt8} (h : line ∈ continued bytes) :
    ∃ chunk, line = 0x20 :: chunk := by
  induction bytes using continued.induct with
  | case1 => simp [continued] at h
  | case2 b rest ih =>
    rw [continued, List.mem_cons] at h
    rcases h with rfl | h
    · exact ⟨_, rfl⟩
    · exact ih h

/-- An attribute whose lines are texts is not cut within a character. -/
theorem exists_shown {header : Header}
    (h : ∀ line ∈ header.lines, ∃ text, line = bytesOf text) :
    ∃ shown : Shown, shown.header = header := by
  have hspace : bytesOf [' '] = [0x20] := by decide
  have hmore : ∀ line ∈ continued ((bytesOf header.text).drop 72),
      line ∈ Set.range fun piece => bytesOf (' ' :: piece) := by
    intro line hline
    obtain ⟨text, htext⟩ := h line (List.mem_cons_of_mem _ hline)
    obtain ⟨chunk, rfl⟩ := exists_of_mem_continued hline
    have hchunk : bytesOf [' '] ++ chunk = bytesOf text := by
      rw [hspace, ← htext]
      rfl
    obtain ⟨piece, rfl, -⟩ := exists_of_bytesOf_append hchunk
    exact ⟨piece, htext.symm⟩
  obtain ⟨pieces, hpieces⟩ := (Set.ext_iff.mp (Set.range_list_map _) _).mpr hmore
  obtain ⟨first, hfirst⟩ := h _ List.mem_cons_self
  -- the name is short enough to stand in the first line
  have hname : (bytesOf (header.name ++ [':', ' '])).length ≤ 72 := by
    rw [length_bytesOf header.toNat_lt, List.length_append]
    exact Nat.add_le_add_right header.short 2
  have hstart := hfirst
  rw [header.text_eq, bytesOf_append, List.take_append, List.take_of_length_le hname] at hstart
  obtain ⟨head, rfl, -⟩ := exists_of_bytesOf_append hstart
  refine ⟨⟨header, head, pieces, ?_⟩, rfl⟩
  rw [Header.lines, hfirst, hpieces, List.append_assoc]
  rfl

/-- Attributes whose lines are texts are not cut within a character. -/
theorem exists_shown_all {headers : List Header}
    (h : ∀ line ∈ headers.flatMap Header.lines, ∃ text, line = bytesOf text) :
    ∃ shown : List Shown, shown.map Shown.header = headers := by
  refine (Set.ext_iff.mp (Set.range_list_map Shown.header) headers).mpr fun header hheader => ?_
  exact exists_shown fun line hline => h line (List.mem_flatMap.mpr ⟨header, hheader, hline⟩)

/-- A manifest that is no text is cut within a character, or goes on with what is no text. -/
theorem exists_of_manifestBytes {headers : List Header} {ending : LineEnd} {rest : List UInt8}
    {text : List Char} (h : manifestBytes headers ending rest = bytesOf text) :
    (∃ shown : List Shown, shown.map Shown.header = headers) ∧ ∃ more, rest = bytesOf more := by
  obtain ⟨hlines, more, hmore⟩ := exists_texts h
  obtain ⟨blank, rest, -, hrest⟩ := @exists_of_line [] _ _ _ hmore
  exact ⟨exists_shown_all hlines, rest, hrest⟩

theorem continued_of_fits {b : UInt8} {rest : List UInt8} (h : rest.length ≤ 70) :
    continued (b :: rest) = [0x20 :: b :: rest] := by
  rw [continued, List.take_of_length_le h, List.drop_eq_nil_of_le h, continued]

/-! ## What is read -/

theorem continued_tails (bytes : List UInt8) : (continued bytes).flatMap List.tail = bytes := by
  induction bytes using continued.induct with
  | case1 => rw [continued, List.flatMap_nil]
  | case2 b rest ih =>
    rw [continued, List.flatMap_cons, ih, List.tail_cons, List.cons_append,
      List.take_append_drop]

namespace Shown

variable (shown : Shown)

/-- The lines of an attribute hold its value. -/
theorem value_eq : shown.header.value = shown.head ++ shown.pieces.flatten := by
  obtain ⟨hfirst, hmore⟩ := List.cons.inj shown.lines
  have htails : (shown.pieces.map fun piece => bytesOf (' ' :: piece)).flatMap List.tail =
      bytesOf shown.pieces.flatten := by
    induction shown.pieces with
    | nil => rfl
    | cons piece pieces ih =>
      rw [List.map_cons, List.flatMap_cons, ih, List.flatten_cons, bytesOf_append]
      rfl
  have hbytes : bytesOf shown.header.text =
      bytesOf (shown.header.name ++ ':' :: ' ' :: (shown.head ++ shown.pieces.flatten)) := by
    rw [← List.take_append_drop 72 (bytesOf shown.header.text), hfirst, ← continued_tails
      (List.drop 72 (bytesOf shown.header.text)), hmore, htails, ← bytesOf_append]
    simp
  have htext := bytesOf_injective hbytes
  rw [Header.text, List.append_cancel_left_eq] at htext
  simpa using htext

/-- No line of an attribute has the end of a line in it. -/
theorem texts_unbroken : ∀ text ∈ shown.texts, ∀ c ∈ text, c ≠ '\n' ∧ c ≠ '\r' := by
  have hvalue : ∀ c ∈ shown.head ++ shown.pieces.flatten, c ≠ '\n' ∧ c ≠ '\r' := by
    rw [← shown.value_eq]
    exact shown.header.oneLine
  obtain ⟨hhead, hpieces⟩ := List.forall_mem_append.mp hvalue
  have hname : ∀ c ∈ shown.header.name, c ≠ '\n' ∧ c ≠ '\r' := by
    intro c hc
    have hblank := (shown.header.name_unbroken c hc).2
    constructor <;> rintro rfl <;> exact absurd hblank (by decide)
  refine List.forall_mem_cons.mpr ⟨?_, fun text htext => ?_⟩
  · refine List.forall_mem_append.mpr ⟨hname, ?_⟩
    exact List.forall_mem_cons.mpr ⟨by decide, List.forall_mem_cons.mpr ⟨by decide, hhead⟩⟩
  · obtain ⟨piece, hpiece, rfl⟩ := List.mem_map.mp htext
    exact List.forall_mem_cons.mpr
      ⟨by decide, fun c hc => hpieces c (List.mem_flatten.mpr ⟨piece, hpiece, hc⟩)⟩

end Shown

/-- Lines that have no end of a line in them are the lines of the text that they make. -/
theorem lines_flatMap {texts : List (List Char)} (ending : LineEnd)
    (h : ∀ text ∈ texts, ∀ c ∈ text, c ≠ '\n' ∧ c ≠ '\r') (rest : List Char) :
    Text.lines (texts.flatMap (fun text => text ++ ending.chars) ++ rest) =
      texts ++ Text.lines rest := by
  induction texts with
  | nil => rfl
  | cons text texts ih =>
    obtain ⟨htext, htexts⟩ := List.forall_mem_cons.mp h
    have hfeed : '\n' ∉ text := fun hmem => (htext _ hmem).1 rfl
    have hreturn : '\r' ∉ text := fun hmem => (htext _ hmem).2 rfl
    have hline : Text.lines (text ++ (ending.chars ++
        (texts.flatMap (fun text => text ++ ending.chars) ++ rest))) =
        text :: Text.lines (texts.flatMap (fun text => text ++ ending.chars) ++ rest) := by
      cases ending with
      | feed =>
        rw [LineEnd.chars, List.singleton_append, Text.lines_append_cons hfeed,
          Text.dropCarriageReturn_of_notMem hreturn]
      | returnAndFeed =>
        have hmoved (rest : List Char) :
            text ++ (['\r', '\n'] ++ rest) = (text ++ ['\r']) ++ '\n' :: rest := by
          simp
        rw [LineEnd.chars, hmoved, Text.lines_append_cons (by simpa using hfeed),
          Text.dropCarriageReturn_concat]
    rw [List.flatMap_cons, List.append_assoc, List.append_assoc, hline, ih htexts,
      List.cons_append]

/-! ## What is taken -/

theorem trim_space (text : List Char) : Text.trim (' ' :: text) = Text.trim text := by
  have hblank : Text.isBlank ' ' = true := by decide
  exact Text.trim_blanks_append (List.forall_mem_singleton.mpr hblank) text

theorem isFilled_space (piece : List Char) : isFilled (' ' :: piece) = isFilled piece := by
  rw [isFilled, isFilled, trim_space]

theorem ofLine?_space (piece : List Char) : ofLine? (' ' :: piece) = ofLine? piece := by
  have hkey : (' ' :: piece).takeWhile (· != ':') = ' ' :: piece.takeWhile (· != ':') :=
    List.takeWhile_cons_of_pos (by decide)
  simp only [ofLine?, hkey, trim_space, List.length_cons, List.drop_succ_cons]

theorem Header.trim_name (header : Header) : Text.trim header.name = header.name :=
  Text.trim_eq_self fun c hc => (header.name_unbroken c hc).2

/-- The first line of an attribute has its name. -/
theorem ofLine?_first (header : Header) (head : List Char) :
    ofLine? (header.name ++ ':' :: ' ' :: head) =
      if skippedKeys.contains (String.ofList header.name) then none
      else some (String.ofList header.name, String.ofList (Text.trim head)) := by
  have hkey : (header.name ++ ':' :: ' ' :: head).takeWhile (· != ':') = header.name := by
    rw [List.takeWhile_append_of_pos fun c hc => by simp [(header.name_unbroken c hc).1]]
    simp
  simp only [ofLine?, hkey, List.drop_left, header.trim_name, trim_space]

theorem isFilled_first (header : Header) (head : List Char) :
    isFilled (header.name ++ ':' :: ' ' :: head) = true := by
  have hcolon : ¬Text.trim (header.name ++ ':' :: ' ' :: head) = [] := by
    rw [Text.trim_eq_nil_iff]
    exact fun hblank => absurd (hblank ':' (by simp)) (by decide)
  simp [isFilled, hcolon]

theorem Shown.pairs_eq (shown : Shown) :
    (shown.texts.takeWhile isFilled).filterMap ofLine? = shown.pairs := by
  have hfilled : isFilled ∘ (' ' :: ·) = isFilled := funext isFilled_space
  have hline : ofLine? ∘ (' ' :: ·) = ofLine? := funext ofLine?_space
  rw [texts, List.takeWhile_cons_of_pos (isFilled_first _ _), List.takeWhile_map, hfilled,
    List.filterMap_cons, ofLine?_first, List.filterMap_map, hline, pairs]
  split <;> split <;> simp_all

theorem takeWhile_append_blank {lines rest : List (List Char)} :
    (lines ++ [] :: rest).takeWhile isFilled = lines.takeWhile isFilled := by
  rw [List.takeWhile_append]
  split
  next h =>
    have hblank : isFilled [] = false := by decide
    rw [List.takeWhile_cons_of_neg (by simp [hblank]), List.append_nil]
    exact ((List.takeWhile_prefix _).eq_of_length h).symm
  next => rfl

/-- The lines of an attribute are read to their end unless one of them is blank. -/
theorem Shown.length_takeWhile (shown : Shown) :
    (shown.texts.takeWhile isFilled).length = shown.texts.length ↔
      shown.pieces.all isFilled = true := by
  have hself : (shown.texts.takeWhile isFilled).length = shown.texts.length ↔
      shown.texts.takeWhile isFilled = shown.texts :=
    ⟨(List.takeWhile_prefix _).eq_of_length, congrArg _⟩
  rw [hself, List.takeWhile_eq_self_iff, texts, List.forall_mem_cons, List.forall_mem_map,
    List.all_eq_true]
  simp [isFilled_first, isFilled_space]

/-- The lines of attributes are read up to the first blank one. -/
theorem taken_eq (shown : List Shown) :
    ((shown.flatMap Shown.texts).takeWhile isFilled).filterMap ofLine? = taken shown := by
  induction shown with
  | nil => rfl
  | cons first rest ih =>
    rw [List.flatMap_cons, List.takeWhile_append, taken, ← ih, ← first.pairs_eq]
    by_cases hall : first.pieces.all isFilled = true
    · rw [if_pos (first.length_takeWhile.mpr hall), if_pos hall, List.filterMap_append]
      rw [(List.takeWhile_prefix _).eq_of_length (first.length_takeWhile.mpr hall)]
    · rw [if_neg (mt first.length_takeWhile.mp hall), if_neg hall, List.append_nil]

/-! ## The manifest as a text -/

/-- The bytes of lines that are texts are those of a text. -/
theorem manifestBytes_eq (shown : List Shown) (ending : LineEnd) (rest : List Char) :
    manifestBytes (shown.map Shown.header) ending (bytesOf rest) =
      bytesOf ((shown.flatMap Shown.texts).flatMap (fun text => text ++ ending.chars) ++
        (ending.chars ++ rest)) := by
  have hlines (lines : List (List Char)) :
      (lines.map bytesOf).flatMap (fun line => line ++ bytesOf ending.chars) =
        bytesOf (lines.flatMap fun text => text ++ ending.chars) := by
    induction lines with
    | nil => rfl
    | cons line lines ih => simp [ih]
  have hshown : (shown.map Shown.header).flatMap Header.lines =
      (shown.flatMap Shown.texts).map bytesOf := by
    induction shown with
    | nil => rfl
    | cons first shown ih =>
      rw [List.map_cons, List.flatMap_cons, ih, List.flatMap_cons, List.map_append, first.lines]
      simp [Shown.texts, Function.comp_def]
  rw [manifestBytes, hshown, hlines, bytesOf_append, bytesOf_append]

theorem mainSection_eq (shown : List Shown) (ending : LineEnd) (rest : List Char) :
    mainSection ((shown.flatMap Shown.texts).flatMap (fun text => text ++ ending.chars) ++
      (ending.chars ++ rest)) = taken shown := by
  have hunbroken : ∀ text ∈ shown.flatMap Shown.texts, ∀ c ∈ text, c ≠ '\n' ∧ c ≠ '\r' := by
    intro text htext
    obtain ⟨one, -, htext⟩ := List.mem_flatMap.mp htext
    exact one.texts_unbroken text htext
  have hblank : Text.lines (ending.chars ++ rest) = [] :: Text.lines rest := by
    simpa using @lines_flatMap [[]] ending (by simp) rest
  have hlines := lines_flatMap ending hunbroken (ending.chars ++ rest)
  rw [mainSection, hlines, hblank, ← taken_eq, ← @takeWhile_append_blank _ (Text.lines rest)]
  rfl

/-! ## The provenance of a build -/

section Collect

variable {fs : FileSystem} {raw directory : PathText} {base : Dictionary String}
  {content : ByteArray}

/-- What is told of a build with the text of the manifest. -/
theorem collect_of_readFile (h : fs.readFile (Path.join directory sectionFile) = .ok content)
    (raw : PathText) (base : Dictionary String) :
    collect fs raw (some directory) base = collect fs raw none
      (base.insertAll (((decode? content).map fun text => mainSection text.toList).getD [])) := by
  have htext : fs.readText? (Path.join directory sectionFile) = decode? content := by
    rw [FileSystem.readText?, FileSystem.readText, h]
    cases hdecoded : decode? content <;> simp [hdecoded, Except.toOption]
  rw [collect, Option.bind_some, htext]
  rfl

end Collect

/-- What stands in the first line is the whole value exactly if only blanks are cut off. -/
theorem Shown.trim_head_eq_iff (shown : Shown) :
    Text.trim shown.head = Text.trim shown.header.value ↔
      ∀ piece ∈ shown.pieces, isFilled piece = false := by
  have hblank (piece : List Char) :
      isFilled piece = false ↔ ∀ c ∈ piece, Text.isBlank c = true := by
    simp [isFilled, ← Text.trim_eq_nil_iff]
  simp only [shown.value_eq, eq_comm (a := Text.trim shown.head), Text.trim_append_eq_iff, hblank,
    List.mem_flatten]
  exact ⟨fun h piece hpiece c hc => h c ⟨piece, hpiece, hc⟩,
    fun h c ⟨piece, hpiece, hc⟩ => h piece hpiece c hc⟩

/-- The last value of a name among attributes. -/
def lastValue? (headers : List Header) (key : String) : Option String :=
  (headers.reverse.find? fun header => String.ofList header.name == key).map fun header =>
    String.ofList (Text.trim header.value)

/-- The value that an attribute gives to its name. -/
def Header.pair? (header : Header) : Option (String × String) :=
  if skippedKeys.contains (String.ofList header.name) then none
  else some (String.ofList header.name, String.ofList (Text.trim header.value))

theorem taken_whole {shown : List Shown} (h : ∀ one ∈ shown, one.pieces = []) :
    taken shown = (shown.map Shown.header).filterMap Header.pair? := by
  induction shown with
  | nil => rfl
  | cons first rest ih =>
    obtain ⟨hfirst, hrest⟩ := List.forall_mem_cons.mp h
    have hhead : first.header.value = first.head := by simpa [hfirst] using first.value_eq
    rw [taken, ih hrest, Shown.pairs, hfirst, List.map_cons, List.filterMap_cons, Header.pair?,
      hhead]
    split <;> simp_all

theorem lookup_filterMap_pair? (headers : List Header) (key : String) :
    (headers.filterMap Header.pair?).lookup key =
      if skippedKeys.contains key then none
      else (headers.find? fun header => String.ofList header.name == key).map fun header =>
        String.ofList (Text.trim header.value) := by
  induction headers with
  | nil => simp
  | cons first rest ih =>
    rw [List.filterMap_cons, Header.pair?, List.find?_cons]
    by_cases hname : String.ofList first.name = key
    · subst hname
      by_cases hskipped : skippedKeys.contains (String.ofList first.name) = true
      · simp only [if_pos hskipped, ih]
      · simp only [if_neg hskipped, List.lookup_cons, BEq.rfl, Option.map_some]
    · have hfirst : (String.ofList first.name == key) = false := beq_eq_false_iff_ne.mpr hname
      have hkey : (key == String.ofList first.name) = false :=
        beq_eq_false_iff_ne.mpr (Ne.symm hname)
      rw [hfirst, ← ih]
      split
      next => rfl
      next pair hpair =>
        split at hpair
        next => cases hpair
        next =>
          cases hpair
          rw [List.lookup_cons, hkey]

theorem lookup_taken {shown : List Shown} (h : ∀ one ∈ shown, one.pieces = []) (key : String) :
    (taken shown).reverse.lookup key =
      if key = "Manifest-Version" then none else lastValue? (shown.map Shown.header) key := by
  rw [taken_whole h, ← List.filterMap_reverse, lookup_filterMap_pair?, lastValue?]
  simp [skippedKeys]

theorem Header.lines_of_fits {header : Header} (h : (bytesOf header.text).length ≤ 72) :
    header.lines = [bytesOf header.text] := by
  rw [lines, List.take_of_length_le h, List.drop_eq_nil_of_le h, continued]

/-- The attributes of a main section are read line by line. Where a line breaks off within a
character, or what follows the section is no text, the manifest counts as if it were missing.
Otherwise the name of an attribute gets what stands in its first line, which is the whole value
exactly if nothing but blanks is cut off; each further line that has a colon gives a key of its own;
and the first further line that is blank ends the section. So attributes that fit into one line each
are read as they are, the last one of a name, except for the version of the manifest, and what the
tooling metadata tell replaces them. -/
theorem collect_main_section {fs : FileSystem} {directory : PathText} {content : ByteArray}
    {headers : List Header} {ending : LineEnd} {rest : List UInt8}
    (hfile : fs.readFile (Path.join directory sectionFile) = .ok content)
    (hcontent : content.data.toList = manifestBytes headers ending rest)
    (raw : PathText) (base : Dictionary String) :
    ((¬∃ shown : List Shown, shown.map Shown.header = headers) ∨ (¬∃ more, rest = bytesOf more) →
      collect fs raw (some directory) base = collect fs raw none base) ∧
    (∀ shown : List Shown, shown.map Shown.header = headers → (∃ more, rest = bytesOf more) →
      collect fs raw (some directory) base =
        collect fs raw none (base.insertAll (taken shown)) ∧
      ∀ one ∈ shown, Text.trim one.head = Text.trim one.header.value ↔
        ∀ piece ∈ one.pieces, isFilled piece = false) ∧
    ((∀ header ∈ headers, (bytesOf header.text).length ≤ 72) → (∃ more, rest = bytesOf more) →
      ∀ key, (collect fs raw (some directory) base).get? key =
        ((((Tooling.read? fs raw).map ofTooling).getD []).reverse.lookup key).or
          ((if key = "Manifest-Version" then none else lastValue? headers key).or
            (base.get? key))) := by
  have hshown (shown : List Shown) (hheaders : shown.map Shown.header = headers)
      (hrest : ∃ more, rest = bytesOf more) :
      collect fs raw (some directory) base =
        collect fs raw none (base.insertAll (taken shown)) := by
    obtain ⟨more, rfl⟩ := hrest
    rw [← hheaders, manifestBytes_eq] at hcontent
    have hdecoded := decode?_eq_some_iff.mpr
      (hcontent.trans (congrArg bytesOf (String.toList_ofList).symm))
    rw [collect_of_readFile hfile, hdecoded, Option.map_some, Option.getD_some,
      String.toList_ofList, mainSection_eq]
  refine ⟨fun hnone => ?_, fun shown hheaders hrest => ⟨hshown shown hheaders hrest,
    fun one _ => one.trim_head_eq_iff⟩, fun hfits hrest key => ?_⟩
  · have hdecoded : decode? content = none := by
      rw [Option.eq_none_iff_forall_ne_some]
      intro text htext
      rw [decode?_eq_some_iff, hcontent] at htext
      obtain ⟨hlines, hmore⟩ := exists_of_manifestBytes htext
      exact hnone.elim (absurd hlines) (absurd hmore)
    rw [collect_of_readFile hfile, hdecoded]
    rfl
  · obtain ⟨shown, hheaders⟩ : ∃ shown : List Shown, shown.map Shown.header = headers := by
      refine exists_shown_all fun line hline => ?_
      obtain ⟨header, hheader, hline⟩ := List.mem_flatMap.mp hline
      rw [Header.lines_of_fits (hfits header hheader), List.mem_singleton] at hline
      exact ⟨header.text, hline⟩
    have hwhole : ∀ one ∈ shown, one.pieces = [] := by
      intro one hone
      have hlines := one.lines
      have hheader : one.header ∈ headers := hheaders ▸ List.mem_map_of_mem hone
      rw [Header.lines_of_fits (hfits _ hheader)] at hlines
      simpa using (List.cons.inj hlines).2
    rw [hshown shown hheaders hrest, ← hheaders, ← lookup_taken hwhole key]
    simp only [collect, Dictionary.get?_insertAll_or]
    rfl

/-- A tree whose archive has a manifest. -/
def filesWith (text : String) : FileSystem :=
  { nodes :=
      [(["d"], .directory), (["d", "META-INF"], .directory),
       (["d", "META-INF", "MANIFEST.MF"], .file text.toUTF8 false)]
    current := []
    temporary := "/" }

/-- A class path that fits into one line. -/
def Fitting.header : Header where
  name := "Class-Path".toList
  value := "a.jar ".toList
  starts := ⟨'C', by decide, by decide⟩
  spelled := List.all_iff_forall_prop.mp (by decide)
  short := by decide
  oneLine := List.all_iff_forall_prop.mp (by decide)

def Fitting.text : String := "Class-Path: a.jar \r\n\r\nName: b\r\n"

theorem collect_main_section_fitting :
    (collect (filesWith Fitting.text) "/r" (some "/d/META-INF") []).get? "Class-Path"
        = some "a.jar" ∧
    (collect (filesWith Fitting.text) "/r" (some "/d/META-INF") []).get? "Name" = none := by
  have hfits : (bytesOf Fitting.header.text).length ≤ 72 := by decide
  have hrest : "Name: b\r\n".toUTF8.data.toList = bytesOf "Name: b\r\n".toList := by
    decide +kernel
  have hcontent : Fitting.text.toUTF8.data.toList =
      manifestBytes [Fitting.header] .returnAndFeed "Name: b\r\n".toUTF8.data.toList := by
    rw [manifestBytes, List.flatMap_singleton, Header.lines_of_fits hfits]
    decide +kernel
  have hfile : (filesWith Fitting.text).readFile (Path.join "/d/META-INF" sectionFile) =
      .ok Fitting.text.toUTF8 := by
    rfl
  obtain ⟨-, -, hwhole⟩ := collect_main_section hfile hcontent "/r" []
  have hread := hwhole (by simpa using hfits) ⟨_, hrest⟩
  rw [hread, hread]
  decide +kernel

/-- A class path that is longer than a line. -/
def Wrapped.header : Header where
  name := "Class-Path".toList
  value := "lib/annotations.jar lib/collections.jar lib/concurrency.jar file:/opt/sdk.jar".toList
  starts := ⟨'C', by decide, by decide⟩
  spelled := List.all_iff_forall_prop.mp (by decide)
  short := by decide
  oneLine := List.all_iff_forall_prop.mp (by decide)

def Wrapped.text : String :=
  "Class-Path: lib/annotations.jar lib/collections.jar lib/concurrency.jar \n" ++
    " file:/opt/sdk.jar\n\n"

/-- The end of a long class path is lost, and a part of it is taken for a key. -/
theorem wrapped_class_path_cut :
    (filesWith Wrapped.text).readFile "/d/META-INF/MANIFEST.MF" = .ok Wrapped.text.toUTF8 ∧
    Wrapped.text.toUTF8.data.toList = manifestBytes [Wrapped.header] .feed [] ∧
    (collect (filesWith Wrapped.text) "/r" (some "/d/META-INF") []).get? "Class-Path" =
      some "lib/annotations.jar lib/collections.jar lib/concurrency.jar" ∧
    (collect (filesWith Wrapped.text) "/r" (some "/d/META-INF") []).get? "file" =
      some "/opt/sdk.jar" := by
  refine ⟨rfl, ?_, by decide +kernel, by decide +kernel⟩
  have hrest : (bytesOf Wrapped.header.text).drop 72 = bytesOf "file:/opt/sdk.jar".toList := by
    decide +kernel
  have hmore : continued (bytesOf "file:/opt/sdk.jar".toList) =
      [bytesOf " file:/opt/sdk.jar".toList] :=
    continued_of_fits (by decide)
  rw [manifestBytes, List.flatMap_singleton, Header.lines, hrest, hmore]
  decide +kernel

end SdkEvidence.Provenance
