import Mathlib.Data.Bool.AllAny
import SdkEvidence.Proofs.Decimal.Digits
import SdkEvidence.Proofs.Text.Blank
import SdkEvidence.Yaml.Value

/-!
# Numbers

A plain scalar that reads as a number is written with the characters of numbers only
(`plainValue?_number`), and so is the text that the number is shown with (`text_chars`). Neither has
a blank in it.
-/
namespace SdkEvidence.Yaml

/-- The characters that numbers are written with. -/
def numberChars : List Char :=
  "0123456789abcdefABCDEFxoinIN+-.".toList

/-- A text is written like a number: it is not empty and has the characters of one. -/
def NumberLike (text : List Char) : Prop :=
  text ≠ [] ∧ ∀ c ∈ text, c ∈ numberChars

-- The characters of the text are tried, not all that there are.
instance (text : List Char) : Decidable (NumberLike text) :=
  haveI : Decidable (∀ c ∈ text, c ∈ numberChars) := List.decidableBAll (· ∈ numberChars) text
  inferInstanceAs (Decidable (_ ∧ _))

/-- No text that is written like a number is read as nothing or as a truth value. -/
theorem NumberLike.reads {s : String} (h : NumberLike s.toList) :
    s ≠ "" ∧ isNullText s = false ∧ boolOfText? s = none := by
  have hother (names : List String) (hnames : ∀ name ∈ names, ¬NumberLike name.toList) :
      names.contains s = false := by
    rw [List.contains_eq_mem, decide_eq_false_iff_not]
    exact fun hs => hnames s hs h
  refine ⟨?_, hother _ (by decide), ?_⟩
  · rintro rfl
    exact h.1 rfl
  · rw [boolOfText?, hother _ (by decide), hother _ (by decide)]
    rfl

theorem mem_numberChars_of_digitValue? {c : Char} {d : Nat} (h : Hex.digitValue? c = some d) :
    c ∈ numberChars := by
  have ascii : c.toNat < 103 := by
    unfold Hex.digitValue? at h
    grind [Char.le_def, Char.toNat, UInt32.le_iff_toNat_le]
  have small : ∀ n < 103, (Hex.digitValue? (Char.ofNat n)).isSome → Char.ofNat n ∈ numberChars := by
    decide
  rw [← Char.ofNat_toNat c] at h ⊢
  exact small _ ascii (by rw [h]; rfl)

theorem digitValue?_of_isDigit {c : Char} (h : c.isDigit = true) :
    Hex.digitValue? c = some (c.toNat - 48) := by
  simp only [Char.isDigit, Bool.and_eq_true, decide_eq_true_eq] at h
  exact if_pos h

theorem mem_numberChars_of_isDigit {c : Char} (h : c.isDigit = true) : c ∈ numberChars :=
  mem_numberChars_of_digitValue? (digitValue?_of_isDigit h)

/-- The digits of a number in a base. -/
theorem naturalIn?_chars {base n : Nat} {ds : List Char} (h : naturalIn? base ds = some n) :
    NumberLike ds := by
  unfold naturalIn? at h
  split at h
  · cases h
  next filled =>
    refine ⟨by simpa using filled, ?_⟩
    clear filled
    generalize 0 = start at h
    induction ds generalizing start with
    | nil => simp
    | cons c ds ih =>
      simp only [List.foldlM_cons, Option.bind_eq_bind, Option.bind_eq_some_iff] at h
      obtain ⟨next, ⟨d, digit, -⟩, rest⟩ := h
      exact List.forall_mem_cons.mpr ⟨mem_numberChars_of_digitValue? digit, ih next rest⟩

theorem NumberLike.cons {c : Char} {text : List Char} (hc : c ∈ numberChars)
    (h : NumberLike text) : NumberLike (c :: text) :=
  ⟨List.cons_ne_nil _ _, List.forall_mem_cons.mpr ⟨hc, h.2⟩⟩

theorem marked?_chars {cs : List Char} {n : Nat} (h : marked? cs = some n) : NumberLike cs := by
  unfold marked? at h
  split at h
  · exact (naturalIn?_chars h).cons (by decide) |>.cons (by decide)
  · exact (naturalIn?_chars h).cons (by decide) |>.cons (by decide)
  · exact (naturalIn?_chars h).cons (by decide) |>.cons (by decide)
  · cases h

/-- The characters of an integer without its sign. -/
theorem unsigned_chars {cs : List Char} {n : Nat} {leading : Bool}
    (h : ((marked? cs).orElse fun _ => if leading then none else naturalIn? 10 cs) = some n) :
    NumberLike cs := by
  cases marked : marked? cs with
  | some m => exact marked?_chars marked
  | none =>
    rw [marked] at h
    cases leading with
    | true => cases h
    | false => exact naturalIn?_chars h

theorem integerOfText?_chars {cs : List Char} {n : Int} (h : integerOfText? cs = some n) :
    NumberLike cs := by
  unfold integerOfText? at h
  split at h
  · obtain ⟨m, read, -⟩ := Option.map_eq_some_iff.mp h
    obtain ⟨m, read, -⟩ := Option.bind_eq_some_iff.mp read
    exact (unsigned_chars read).cons (by decide)
  · obtain ⟨m, read, -⟩ := Option.map_eq_some_iff.mp h
    exact (unsigned_chars read).cons (by decide)
  · obtain ⟨m, read, -⟩ := Option.map_eq_some_iff.mp h
    exact unsigned_chars read

theorem fraction_chars (cs : List Char) : ∃ point : List Char,
    cs = point ++ (fraction cs).1 ++ (fraction cs).2 ∧ ∀ c ∈ point, c ∈ numberChars := by
  unfold fraction
  split
  · exact ⟨['.'], by simp, List.forall_mem_singleton.mpr (by decide)⟩
  · exact ⟨[], by simp, by simp⟩

theorem power?_chars {cs : List Char} {n : Int} (h : power? cs = some n) :
    ∀ c ∈ cs, c ∈ numberChars := by
  unfold power? at h
  split at h
  · simp
  next c rest =>
    split at h
    next mark =>
      have hc : c ∈ numberChars := by rcases mark with rfl | rfl <;> decide
      refine List.forall_mem_cons.mpr ⟨hc, ?_⟩
      split at h
      · obtain ⟨m, read, -⟩ := Option.map_eq_some_iff.mp h
        obtain ⟨m, read, -⟩ := Option.bind_eq_some_iff.mp read
        exact ((naturalIn?_chars read).cons (by decide)).2
      · obtain ⟨m, read, -⟩ := Option.map_eq_some_iff.mp h
        exact ((naturalIn?_chars read).cons (by decide)).2
      · obtain ⟨m, read, -⟩ := Option.map_eq_some_iff.mp h
        exact (naturalIn?_chars read).2
    · cases h

theorem decimalText?_chars {cs : List Char} {text : String} (h : decimalText? cs = some text) :
    NumberLike cs := by
  unfold decimalText? at h
  simp only at h
  split at h
  · cases h
  next filled =>
    obtain ⟨power, hpower, h⟩ := Option.bind_eq_some_iff.mp h
    obtain ⟨digits, hdigits, -⟩ := Option.bind_eq_some_iff.mp h
    obtain ⟨point, hsplit, hpoint⟩ := fraction_chars (cs.dropWhile Char.isDigit)
    have hcs : cs = cs.takeWhile Char.isDigit ++ cs.dropWhile Char.isDigit :=
      List.takeWhile_append_dropWhile.symm
    obtain ⟨hfilled, hchars⟩ := naturalIn?_chars hdigits
    obtain ⟨hwhole, hfraction⟩ := List.forall_mem_append.mp hchars
    refine ⟨?_, ?_⟩
    · rintro rfl
      exact hfilled rfl
    · rw [hcs, hsplit]
      simp only [List.forall_mem_append]
      exact ⟨hwhole, ⟨hpoint, hfraction⟩, power?_chars hpower⟩

theorem numberLike_of_listed {names : List String} {s : String} (hs : names.contains s = true)
    (h : ∀ name ∈ names, NumberLike name.toList) :
    NumberLike s.toList :=
  h s (List.contains_iff_mem.mp hs)

theorem floatText?_chars {s text : String} (h : floatText? s = some text) :
    NumberLike s.toList := by
  unfold floatText? at h
  split at h
  next hs => exact numberLike_of_listed hs (by decide)
  split at h
  next hs => exact numberLike_of_listed hs (by decide)
  split at h
  next hs => exact numberLike_of_listed hs (by decide)
  split at h
  next rest hs =>
    obtain ⟨digits, hdigits, -⟩ := Option.map_eq_some_iff.mp h
    rw [hs]
    exact (decimalText?_chars hdigits).cons (by decide)
  next rest hs =>
    rw [hs]
    exact (decimalText?_chars h).cons (by decide)
  next => exact decimalText?_chars h

/-- What a plain scalar reads as, when it is a number. -/
theorem plainValue?_number {s : String} {n : Number} (h : plainValue? s = some (.number n)) :
    NumberLike s.toList ∧
      ((∃ i, integerOfText? s.toList = some i ∧ extent i = .fits ∧ n = .integer i) ∨
        ∃ text, floatText? s = some text ∧ n = .float text) := by
  unfold plainValue? at h
  split at h
  · cases h
  · split at h
    · cases h
    · extract_lets otherwise at h
      have float (hfloat : otherwise = .number n) :
          ∃ text, floatText? s = some text ∧ n = .float text := by
        simp only [otherwise] at hfloat
        split at hfloat
        · cases hfloat
        · split at hfloat
          next text htext =>
            cases hfloat
            exact ⟨text, htext, rfl⟩
          · cases hfloat
      split at h
      · obtain ⟨text, htext, hn⟩ := float (Option.some.inj h)
        exact ⟨floatText?_chars htext, Or.inr ⟨text, htext, hn⟩⟩
      next i hi =>
        split at h
        next hfits =>
          cases h
          exact ⟨integerOfText?_chars hi, Or.inl ⟨i, hi, hfits, rfl⟩⟩
        · cases h
        · obtain ⟨text, htext, hn⟩ := float (Option.some.inj h)
          exact ⟨floatText?_chars htext, Or.inr ⟨text, htext, hn⟩⟩

/-- A plain scalar stands for nothing at all only where it is too wide an integer. -/
theorem plainValue?_eq_none {s : String} (h : plainValue? s = none) :
    NumberLike s.toList ∧ ∃ i, integerOfText? s.toList = some i ∧ extent i = .tooWide := by
  unfold plainValue? at h
  split at h
  · cases h
  · split at h
    · cases h
    · dsimp only at h
      split at h
      · cases h
      next i hi =>
        split at h
        · cases h
        next hwide => exact ⟨integerOfText?_chars hi, i, hi, hwide⟩
        · cases h

/-- A plain scalar reads as a number, even if it is too wide for one. -/
def IsNumber (s : String) : Prop :=
  plainValue? s = none ∨ ∃ n, plainValue? s = some (.number n)

theorem isNumber_chars {s : String} (h : IsNumber s) : NumberLike s.toList := by
  rcases h with hwide | ⟨n, hn⟩
  · exact (plainValue?_eq_none hwide).1
  · exact (plainValue?_number hn).1

theorem NumberLike.trim {text : List Char} (h : NumberLike text) : Text.trim text = text := by
  have solid : ∀ c ∈ numberChars, Text.isBlank c = false :=
    List.all_iff_forall_prop.mp (by decide)
  exact Text.trim_eq_self fun c hc => solid c (h.2 c hc)

/-! ## What numbers are shown with -/

theorem toDigits_chars (n : Nat) : NumberLike (Nat.toDigits 10 n) :=
  ⟨Nat.toDigits_ne_nil, fun _ hc => mem_numberChars_of_isDigit (Decimal.isDigit_toDigits hc)⟩

theorem toList_toString_ofNat (n : Nat) :
    (toString (Int.ofNat n)).toList = Nat.toDigits 10 n := by
  simp [toString, Int.repr]

theorem toList_toString_negSucc (n : Nat) :
    (toString (Int.negSucc n)).toList = '-' :: Nat.toDigits 10 (n + 1) := by
  simp [toString, Int.repr]

theorem toString_chars (i : Int) : NumberLike (toString i).toList := by
  cases i with
  | ofNat n =>
    rw [toList_toString_ofNat]
    exact toDigits_chars n
  | negSucc n =>
    rw [toList_toString_negSucc]
    exact (toDigits_chars _).cons (by decide)

theorem binary64_text_chars (v : Decimal.Binary64) : NumberLike v.text.toList := by
  unfold Decimal.Binary64.text
  split
  · decide
  · dsimp only
    rw [String.toList_ofList]
    generalize Decimal.strip 20 v.shortest.1 v.shortest.2 = stripped
    have shown := toDigits_chars stripped.1
    generalize Nat.toDigits 10 stripped.1 = ds at shown
    have zeros (n : Nat) : ∀ c ∈ List.replicate n '0', c ∈ numberChars := by
      intro c hc
      rw [List.eq_of_mem_replicate hc]
      decide
    have marks : '.' ∈ numberChars ∧ '0' ∈ numberChars ∧ 'e' ∈ numberChars := by decide
    obtain ⟨point, zero, exponent⟩ := marks
    have taken (n : Nat) : ∀ c ∈ ds.take n, c ∈ numberChars :=
      fun c hc => shown.2 c (List.mem_of_mem_take hc)
    have dropped (n : Nat) : ∀ c ∈ ds.drop n, c ∈ numberChars :=
      fun c hc => shown.2 c (List.mem_of_mem_drop hc)
    split
    · refine ⟨by simp, ?_⟩
      simp only [List.forall_mem_append, List.forall_mem_cons]
      exact ⟨⟨shown.2, zeros _⟩, point, zero, by simp⟩
    split
    · refine ⟨by simp, ?_⟩
      simp only [List.forall_mem_append, List.forall_mem_cons]
      exact ⟨taken _, point, dropped _⟩
    split
    · refine ⟨by simp, ?_⟩
      simp only [List.forall_mem_append, List.forall_mem_cons]
      exact ⟨⟨zero, point, zeros _⟩, shown.2⟩
    · refine ⟨by simp, ?_⟩
      simp only [List.forall_mem_append, List.forall_mem_cons]
      refine ⟨?_, exponent, (toString_chars _).2⟩
      have hds := shown.2
      split
      · exact hds
      · rw [List.forall_mem_cons] at hds ⊢
        exact ⟨hds.1, List.forall_mem_cons.mpr ⟨point, hds.2⟩⟩
      · simp

theorem decimalText?_shown {cs : List Char} {text : String} (h : decimalText? cs = some text) :
    NumberLike text.toList := by
  unfold decimalText? at h
  simp only at h
  split at h
  · cases h
  · obtain ⟨power, -, h⟩ := Option.bind_eq_some_iff.mp h
    obtain ⟨digits, -, h⟩ := Option.bind_eq_some_iff.mp h
    obtain ⟨v, -, rfl⟩ := Option.map_eq_some_iff.mp h
    exact binary64_text_chars v

theorem floatText?_shown {s text : String} (h : floatText? s = some text) :
    NumberLike text.toList := by
  unfold floatText? at h
  split at h
  · cases h
    decide
  split at h
  · cases h
    decide
  split at h
  · cases h
    decide
  split at h
  · obtain ⟨shown, hshown, rfl⟩ := Option.map_eq_some_iff.mp h
    rw [String.toList_append]
    exact (decimalText?_shown hshown).cons (by decide)
  · exact decimalText?_shown h
  · exact decimalText?_shown h

/-- The text that the number of a plain scalar is shown with. -/
theorem text_chars {s : String} {n : Number} (h : plainValue? s = some (.number n)) :
    NumberLike n.text.toList := by
  rcases (plainValue?_number h).2 with ⟨i, -, -, rfl⟩ | ⟨text, htext, rfl⟩
  · exact toString_chars i
  · exact floatText?_shown htext

/-! ## Integers in decimal digits -/

theorem naturalIn?_toDigits (n : Nat) : naturalIn? 10 (Nat.toDigits 10 n) = some n := by
  have hfold (ds : List Char) (hds : ∀ c ∈ ds, c.isDigit = true) (start : Nat) :
      ds.foldlM (fun n c => (Hex.digitValue? c).bind fun d =>
          if d < 10 then some (n * 10 + d) else none) start =
        some (ds.foldl (fun n c => n * 10 + (c.toNat - 48)) start) := by
    induction ds generalizing start with
    | nil => rfl
    | cons c ds ih =>
      obtain ⟨hc, hds⟩ := List.forall_mem_cons.mp hds
      have hten : c.toNat - 48 < 10 := by
        simp only [Char.isDigit, Bool.and_eq_true, decide_eq_true_eq, UInt32.le_iff_toNat_le] at hc
        exact Nat.lt_succ_of_le (Nat.sub_le_of_le_add hc.2)
      simp [List.foldlM_cons, digitValue?_of_isDigit hc, hten, ih hds]
  have hvalue := Decimal.foldl_toDigits 0 n
  rw [List.replicate_zero, List.nil_append] at hvalue
  rw [naturalIn?, if_neg (by simp [Nat.toDigits_ne_nil]),
    hfold _ fun c hc => Decimal.isDigit_toDigits hc, hvalue]

theorem toDigits_unmarked (n : Nat) : marked? (Nat.toDigits 10 n) = none ∧
    hasLeadingZero (Nat.toDigits 10 n) = false ∧
    hasLeadingZero ('-' :: Nat.toDigits 10 n) = false := by
  obtain ⟨d, ds, hdigits, hd, hzero⟩ := Decimal.toDigits_cons n
  have hsigns : d ≠ '-' ∧ d ≠ '+' :=
    ⟨Decimal.ne_of_isDigit hd (by decide), Decimal.ne_of_isDigit hd (by decide)⟩
  rw [hdigits]
  by_cases hd : d = '0'
  · rw [hd, hzero hd]
    decide
  · simp [marked?, hasLeadingZero, hd, hsigns]

theorem integerOfText?_toString (i : Int) : integerOfText? (toString i).toList = some i := by
  cases i with
  | ofNat n =>
    obtain ⟨hmarked, hzero, -⟩ := toDigits_unmarked n
    have hvalue := naturalIn?_toDigits n
    obtain ⟨d, ds, hdigits, hd, -⟩ := Decimal.toDigits_cons n
    have hsigns : d ≠ '-' ∧ d ≠ '+' :=
      ⟨Decimal.ne_of_isDigit hd (by decide), Decimal.ne_of_isDigit hd (by decide)⟩
    rw [toList_toString_ofNat]
    rw [hdigits] at hmarked hzero hvalue ⊢
    simp [integerOfText?, hsigns, hmarked, hzero, hvalue]
  | negSucc n =>
    obtain ⟨hmarked, -, hzero⟩ := toDigits_unmarked (n + 1)
    rw [toList_toString_negSucc]
    simp [integerOfText?, hmarked, hzero, naturalIn?_toDigits, Int.negSucc_eq]

/-- The decimal digits of an integer of sixty-four bits read as the integer. -/
theorem plainValue?_toString {i : Int} (hfits : extent i = .fits) :
    plainValue? (toString i) = some (.number (.integer i)) := by
  obtain ⟨hfilled, hnull, hbool⟩ := (toString_chars i).reads
  have hinteger := integerOfText?_toString i
  generalize toString i = s at hfilled hnull hbool hinteger ⊢
  simp [plainValue?, hfilled, hnull, hbool, hinteger, hfits]

end SdkEvidence.Yaml
