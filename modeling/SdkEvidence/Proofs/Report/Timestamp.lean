import SdkEvidence.Proofs.Decimal.Digits
import SdkEvidence.Report.Timestamp

/-!
# Timestamps written and read back

A moment in a year of four digits is read back from its standard text (`read?_text`), with as many
nanoseconds as it has. The text is the fields with zeros in front, each up to a separator, so that
no field takes a digit of the next one.
-/
namespace SdkEvidence.Timestamp

/-- The characters of a number with zeros in front. -/
def paddedChars (width n : Nat) : List Char :=
  List.replicate (width - (Nat.toDigits 10 n).length) '0' ++ Nat.toDigits 10 n

theorem toList_padded (width n : Nat) : (padded width n).toList = paddedChars width n := by
  rw [padded, String.toList_ofList, paddedChars]

theorem isDigit_paddedChars {width n : Nat} {c : Char} (hc : c ∈ paddedChars width n) :
    c.isDigit = true := by
  rcases List.mem_append.mp hc with hc | hc
  · rw [(List.mem_replicate.mp hc).2]
    rfl
  · exact Decimal.isDigit_toDigits hc

theorem length_paddedChars {width n : Nat} (hwidth : 0 < width) (hn : n < Nat.pow 10 width) :
    (paddedChars width n).length = width := by
  have hdigits : (Nat.toDigits 10 n).length ≤ width :=
    (Nat.length_toDigits_le_iff (by decide) hwidth).mpr hn
  rw [paddedChars, List.length_append, List.length_replicate]
  omega

/-- Digits are no blanks. -/
theorem isBlank_of_isDigit {c : Char} (hc : c.isDigit = true) : Text.isBlank c = false := by
  have hrange : 48 ≤ c.toNat ∧ c.toNat ≤ 57 := by
    simpa [Char.isDigit, UInt32.le_iff_toNat_le] using hc
  simp only [Text.isBlank, Bool.or_eq_false_iff, Bool.and_eq_false_iff, decide_eq_false_iff_not,
    beq_eq_false_iff_ne]
  omega

theorem trimStart_cons {c : Char} (hc : Text.isBlank c = false) (rest : List Char) :
    Text.trimStart (c :: rest) = c :: rest := by
  rw [Text.trimStart, List.dropWhile_cons, hc]
  rfl

/-- A number with zeros in front starts with a digit. -/
theorem paddedChars_cons (width n : Nat) :
    ∃ d ds, paddedChars width n = d :: ds ∧ d.isDigit = true := by
  cases h : paddedChars width n with
  | nil => exact absurd (List.append_eq_nil_iff.mp h).2 Nat.toDigits_ne_nil
  | cons d ds => exact ⟨d, ds, rfl, isDigit_paddedChars (h ▸ List.mem_cons_self)⟩

theorem trimStart_paddedChars (width n : Nat) (rest : List Char) :
    Text.trimStart (paddedChars width n ++ rest) = paddedChars width n ++ rest := by
  obtain ⟨d, ds, hchars, hd⟩ := paddedChars_cons width n
  rw [hchars, List.cons_append, trimStart_cons (isBlank_of_isDigit hd)]

section Fields

variable {width n : Nat} (hwidth : 0 < width) (hn : n < Nat.pow 10 width) {rest : List Char}
  (hrest : ∀ c ∈ rest.head?, c.isDigit = false)
include hwidth hn hrest

/-- The digits that a reader of at least the width takes are those of the number. -/
theorem takeWhile_take_paddedChars {most : Nat} (hmost : width ≤ most) :
    ((paddedChars width n ++ rest).take most).takeWhile Char.isDigit = paddedChars width n := by
  have hlength := length_paddedChars hwidth hn
  rw [List.take_append, List.take_of_length_le (by omega)]
  refine (Decimal.takeWhile_digits (fun _ => isDigit_paddedChars) ?_).1
  intro c hc
  rw [List.head?_take] at hc
  split at hc
  next => exact absurd hc (by simp)
  next => exact hrest c hc

theorem readNumber_paddedChars {most : Nat} (hmost : width ≤ most) :
    readNumber most (paddedChars width n ++ rest) = some (n, rest) := by
  have hlength := length_paddedChars hwidth hn
  have hne : (paddedChars width n).isEmpty = false := by
    rw [List.isEmpty_eq_false_iff]
    rintro hnil
    rw [hnil, List.length_nil] at hlength
    omega
  rw [readNumber, takeWhile_take_paddedChars hwidth hn hrest hmost, hne, if_neg Bool.false_ne_true,
    List.drop_left, paddedChars, Decimal.foldl_toDigits]

theorem readField_paddedChars {most : Nat} (hmost : width ≤ most) :
    readField most (paddedChars width n ++ rest) = some (n, rest) := by
  rw [readField, trimStart_paddedChars, readNumber_paddedChars hwidth hn hrest hmost]

/-- A year without a sign is read as a number of four digits. -/
theorem readYear_paddedChars (hmost : width ≤ 4) :
    readYear (paddedChars width n ++ rest) = some ((n : Int), rest) := by
  obtain ⟨d, ds, hchars, hd⟩ := paddedChars_cons width n
  have hread := readNumber_paddedChars hwidth hn hrest hmost
  rw [readYear, trimStart_paddedChars]
  rw [hchars] at hread ⊢
  split
  case h_3 => rw [hread]; rfl
  all_goals
    rename_i heq
    exact absurd (List.cons.inj heq).1 (Decimal.ne_of_isDigit hd rfl)

end Fields

theorem readSeparator_cons {c : Char} (hc : Text.isBlank c = false) (rest : List Char) :
    readSeparator c (c :: rest) = some rest := by
  rw [readSeparator, trimStart_cons hc]
  exact if_pos rfl

/-- A fraction of some digits is read as nanoseconds. -/
theorem readFraction_paddedChars {width n : Nat} (hwidth : 0 < width) (hn : n < Nat.pow 10 width)
    (hmost : width ≤ 9) {rest : List Char} (hrest : ∀ c ∈ rest.head?, c.isDigit = false) :
    readFraction ('.' :: (paddedChars width n ++ rest))
      = some (n * Nat.pow 10 (9 - width), rest) := by
  have hdrop : rest.dropWhile Char.isDigit = rest :=
    (@Decimal.takeWhile_digits [] rest (fun _ hc => nomatch hc) hrest).2
  simp only [readFraction, takeWhile_take_paddedChars hwidth hn hrest hmost,
    readNumber_paddedChars hwidth hn hrest hmost, length_paddedChars hwidth hn, hdrop,
    Option.bind_eq_bind, Option.bind_some, Nat.pow_eq]

/-- The fraction of a second is read back, in front of the end of the text. -/
theorem readFraction_fractionText {nanosecond : Nat} (h : nanosecond < 1000000000) :
    readFraction ((fractionText nanosecond).toList ++ ['Z']) = some (nanosecond, ['Z']) := by
  have hend : ∀ c ∈ ['Z'].head?, c.isDigit = false := by simp
  unfold fractionText
  split
  next hzero => rw [hzero]; rfl
  have hpoint (width n : Nat) : ("." ++ padded width n).toList ++ ['Z']
      = '.' :: (paddedChars width n ++ ['Z']) := by
    rw [String.toList_append, toList_padded]
    rfl
  split
  next hmilli =>
    have hthree : nanosecond / 1000000 < 1000 := by omega
    have hwhole : nanosecond / 1000000 * Nat.pow 10 (9 - 3) = nanosecond :=
      Nat.div_mul_cancel (Nat.dvd_of_mod_eq_zero hmilli)
    rw [hpoint, readFraction_paddedChars (by decide) hthree (by decide) hend, hwhole]
  split
  next hmicro =>
    have hsix : nanosecond / 1000 < 1000000 := by omega
    have hwhole : nanosecond / 1000 * Nat.pow 10 (9 - 6) = nanosecond :=
      Nat.div_mul_cancel (Nat.dvd_of_mod_eq_zero hmicro)
    rw [hpoint, readFraction_paddedChars (by decide) hsix (by decide) hend, hwhole]
  next =>
    rw [hpoint, readFraction_paddedChars (by decide) h (by decide) hend]
    simp

theorem daysInMonth_le (year : Int) (month : Nat) : daysInMonth year month ≤ 31 := by
  unfold daysInMonth
  split
  · split <;> decide
  · split <;> decide

/-- The fields of a moment have two digits, and its nanoseconds nine. -/
theorem bounds (t : Timestamp) :
    t.month < 100 ∧ t.day < 100 ∧ t.hour ≤ 23 ∧ t.minute ≤ 59 ∧ t.second < 100
      ∧ t.nanosecond < 1000000000 := by
  have hvalid := of_decide_eq_true t.valid
  have hday := daysInMonth_le t.year t.month
  omega

/-- No distance to universal time leaves the clock as it is. -/
theorem shifted_zero (t : Timestamp) :
    shifted false 0 t.year t.month t.day t.hour t.minute t.second t.nanosecond = some t := by
  obtain ⟨-, -, hhour, hminute, -, -⟩ := t.bounds
  have hclock : (t.hour * 60 + t.minute : Int) - (0 : Nat) = (t.hour * 60 + t.minute : Nat) := by
    omega
  have hinDay : ((t.hour * 60 + t.minute : Nat) % 1440 : Int).toNat = t.hour * 60 + t.minute := by
    omega
  simp only [shifted, Bool.false_eq_true, if_false, hclock, hinDay]
  rw [if_neg (by omega), if_neg (by omega), show (t.hour * 60 + t.minute) / 60 = t.hour by omega,
    show (t.hour * 60 + t.minute) % 60 = t.minute by omega]
  exact dif_pos t.valid

/-- The standard text of a timestamp in a year of four digits. -/
theorem toList_text (t : Timestamp) (hlow : 0 ≤ t.year) (hhigh : t.year ≤ 9999) :
    t.text.toList = paddedChars 4 t.year.toNat ++ '-' :: (paddedChars 2 t.month
      ++ '-' :: (paddedChars 2 t.day ++ 'T' :: (paddedChars 2 t.hour
      ++ ':' :: (paddedChars 2 t.minute ++ ':' :: (paddedChars 2 t.second
      ++ ((fractionText t.nanosecond).toList ++ ['Z'])))))) := by
  simp [text, yearText, hlow, hhigh, toList_padded]

/-- What follows the seconds is no digit. -/
theorem head?_fractionText (nanosecond : Nat) :
    ∀ c ∈ ((fractionText nanosecond).toList ++ ['Z']).head?, c.isDigit = false := by
  unfold fractionText
  split
  · simp
  split
  · simp
  split <;> simp

/-- A timestamp in a year of four digits is read back. -/
theorem read?_text (t : Timestamp) (hlow : 0 ≤ t.year) (hhigh : t.year ≤ 9999) :
    read? t.text = some t := by
  obtain ⟨hmonth, hday, hhour, hminute, hsecond, hnano⟩ := t.bounds
  have hyear (rest : List Char) : readYear (paddedChars 4 t.year.toNat ++ '-' :: rest)
      = some (t.year, '-' :: rest) := by
    have hfour : t.year.toNat < 10000 := by omega
    rw [readYear_paddedChars (by decide) hfour (by simp) (by decide), Int.toNat_of_nonneg hlow]
  have hfield {n : Nat} (hn : n < 100) {c : Char} (hc : c.isDigit = false) (rest : List Char) :
      readField 2 (paddedChars 2 n ++ c :: rest) = some (n, c :: rest) :=
    readField_paddedChars (by decide) hn (by simp [hc]) (by decide)
  have hseconds := readField_paddedChars (by decide) hsecond (head?_fractionText t.nanosecond)
    (Nat.le_refl 2)
  have hoffset : readOffset (Text.trimStart ['Z']) = some (false, 0, []) := rfl
  rw [read?, toList_text t hlow hhigh]
  refine Option.bind_eq_some_iff.mpr ⟨_, hyear _, ?_⟩
  refine Option.bind_eq_some_iff.mpr ⟨_, readSeparator_cons rfl _, ?_⟩
  refine Option.bind_eq_some_iff.mpr ⟨_, hfield hmonth rfl _, ?_⟩
  refine Option.bind_eq_some_iff.mpr ⟨_, readSeparator_cons rfl _, ?_⟩
  refine Option.bind_eq_some_iff.mpr ⟨_, hfield hday rfl _, ?_⟩
  refine Option.bind_eq_some_iff.mpr ⟨_, hfield (Nat.lt_of_le_of_lt hhour (by decide)) rfl _, ?_⟩
  refine Option.bind_eq_some_iff.mpr ⟨_, readSeparator_cons rfl _, ?_⟩
  refine Option.bind_eq_some_iff.mpr ⟨_, hfield (Nat.lt_of_le_of_lt hminute (by decide)) rfl _, ?_⟩
  refine Option.bind_eq_some_iff.mpr ⟨_, readSeparator_cons rfl _, ?_⟩
  refine Option.bind_eq_some_iff.mpr ⟨_, hseconds, ?_⟩
  refine Option.bind_eq_some_iff.mpr ⟨_, readFraction_fractionText hnano, ?_⟩
  refine Option.bind_eq_some_iff.mpr ⟨_, hoffset, ?_⟩
  change (if (!isMoment t.year t.month t.day t.hour t.minute t.second t.nanosecond) = true then none
    else shifted false 0 t.year t.month t.day t.hour t.minute t.second t.nanosecond) = some t
  rw [t.valid, Bool.not_true, if_neg Bool.false_ne_true, shifted_zero]

end SdkEvidence.Timestamp
