import SdkEvidence.Proofs.Text.Ending
import SdkEvidence.Text.Fold

/-!
# Spellings of ASCII words

A text spells an ASCII word when it is the word but for case. Simple folding tells this for every
word (`folded_eq_iff`), and lower-casing for an ending without an `s`
(`endsWith_lower_iff_spells`): both take the Kelvin sign for a `k`, but only folding takes the long
s for an `s`.
-/
namespace SdkEvidence.Text

/-- The small ASCII letter that a character is a form of, if it is one. -/
def plainForm (c : Char) : Char :=
  if c = 'ſ' then 's' else lowerForm c

/-- Whether a text is a word of small ASCII letters and other ASCII characters, but for case. -/
def Spells (word text : List Char) : Prop :=
  text.map plainForm = word

instance (word text : List Char) : Decidable (Spells word text) :=
  inferInstanceAs (Decidable (text.map plainForm = word))

/-- Apart from the capital letters, the Kelvin sign and the long s, no code point that is folded to
another is ASCII or becomes so. -/
theorem foldRows_ascii : ∀ row ∈ foldRows, row = (65, 90, 1, 32) ∨
    128 ≤ row.1 ∧ (row = (8490, 8490, 1, -8383) ∨ row = (383, 383, 1, -268) ∨
      128 ≤ (row.1 : Int) + row.2.2.2) := by
  decide +kernel

/-- The characters that fold to an ASCII character, unless it is a capital letter, are its forms. -/
theorem fold_eq_toNat_iff {t : Char} (ht : t.toNat < 128) (c : Char) :
    fold c = t.toNat ↔ plainForm c = t := by
  have hspecial : fold 'ſ' = 's'.toNat ∧ fold '\u212a' = 'k'.toNat := by decide
  unfold plainForm lowerForm
  split
  next hc => rw [hc, hspecial.1, Char.toNat_inj]
  next hlong =>
    split
    next hc => rw [hc, hspecial.2, Char.toNat_inj]
    next hkelvin =>
      by_cases hcapital : c ∈ capitals
      · have hcapitals : capitals.Forall fun c => fold c = c.toLower.toNat := by decide
        rw [List.forall_iff_forall_mem.mp hcapitals c hcapital, Char.toNat_inj]
      · rw [(mem_capitals_or_toLower_eq c).resolve_left hcapital, fold]
        rcases mapCase_eq c.toNat foldRows with hsame | ⟨row, hrow, hfirst, hlast, himage⟩
        · rw [hsame, Char.toNat_inj]
        · rcases foldRows_ascii row hrow with rfl | ⟨hfar, rfl | rfl | hmoved⟩
          · exact absurd (mem_capitals hfirst hlast) hcapital
          · have hcode : c.toNat = 8490 := Nat.le_antisymm hlast hfirst
            exact absurd (Char.toNat_inj.mp hcode) hkelvin
          · have hcode : c.toNat = 383 := Nat.le_antisymm hlast hfirst
            exact absurd (Char.toNat_inj.mp hcode) hlong
          · have hlarge : 128 ≤ c.toNat := Nat.le_trans hfar hfirst
            rw [himage, ← Char.toNat_inj]
            omega

/-- Only itself folds to an ASCII character that is no letter. -/
theorem fold_eq_toNat_iff_of_not_alpha {t : Char} (ht : t.toNat < 128) (halpha : t.isAlpha = false)
    (c : Char) : fold c = t.toNat ↔ c = t := by
  have hne {letter : Char} (hletter : letter.isAlpha = true) : letter ≠ t := by
    rintro rfl
    rw [halpha] at hletter
    cases hletter
  have hlarge (hc : 128 ≤ c.toNat) : c ≠ t := by
    rintro rfl
    exact absurd ht (Nat.not_lt.mpr hc)
  rw [fold_eq_toNat_iff ht, plainForm, lowerForm]
  split
  next hc => exact iff_of_false (hne (by decide)) (hlarge (by rw [hc]; decide))
  next =>
    split
    next hc => exact iff_of_false (hne (by decide)) (hlarge (by rw [hc]; decide))
    next =>
      rcases mem_capitals_or_toLower_eq c with hcapital | hsame
      · have hcapitals : capitals.Forall fun c => c.isAlpha = true ∧ c.toLower.isAlpha = true := by
          decide
        obtain ⟨hc, hsmall⟩ := List.forall_iff_forall_mem.mp hcapitals c hcapital
        exact iff_of_false (hne hsmall) (hne hc)
      · rw [hsame]

theorem mem_folded_iff {t : Char} (ht : t.toNat < 128) (halpha : t.isAlpha = false)
    (text : List Char) : t.toNat ∈ folded text ↔ t ∈ text := by
  simp [folded, fold_eq_toNat_iff_of_not_alpha ht halpha]

theorem getLast?_folded_iff {t : Char} (ht : t.toNat < 128) (halpha : t.isAlpha = false)
    (text : List Char) : (folded text).getLast? = some t.toNat ↔ text.getLast? = some t := by
  simp [folded, List.getLast?_map, fold_eq_toNat_iff_of_not_alpha ht halpha]

/-- An ASCII character that is folded already. -/
def IsFolded (t : Char) : Prop :=
  t.toNat < 128 ∧ fold t = t.toNat

instance (t : Char) : Decidable (IsFolded t) :=
  inferInstanceAs (Decidable (t.toNat < 128 ∧ fold t = t.toNat))

/-- A text spells a word exactly if both are folded alike. -/
theorem folded_eq_iff {word : List Char} (hword : word.Forall IsFolded) (text : List Char) :
    folded text = folded word ↔ Spells word text := by
  unfold folded Spells
  induction word generalizing text with
  | nil => simp
  | cons t rest ih =>
    obtain ⟨⟨hascii, hfolded⟩, hrest⟩ := (List.forall_cons _ t rest).mp hword
    cases text with
    | nil => simp
    | cons c more => simp [hfolded, fold_eq_toNat_iff hascii, ih hrest]

/-- A text ends in any case with a word without an `s` exactly if its lower-case form does. -/
theorem endsWith_lower_iff_spells {word : List Char} (hword : word.Forall IsPlain)
    (hlong : 's' ∉ word) (text : List Char) :
    endsWith word (lower text) = true ↔ ∃ front back, text = front ++ back ∧ Spells word back := by
  have hform (back : List Char) : word = back.map lowerForm ↔ word = back.map plainForm := by
    refine eq_map_congr (fun t ht c => ?_) back
    unfold plainForm
    split
    next hc =>
      have hplain := List.forall_iff_forall_mem.mp hword t ht
      refine iff_of_false ?_ (ne_of_mem_of_not_mem ht hlong).symm
      rw [hc]
      exact hplain.ne_of_large (by decide)
    next => rfl
  rw [endsWith_lower_iff hword, List.suffix_map_iff]
  constructor
  · rintro ⟨back, ⟨front, rfl⟩, hback⟩
    exact ⟨front, back, rfl, ((hform back).mp hback).symm⟩
  · rintro ⟨front, back, rfl, hback⟩
    exact ⟨back, List.suffix_append front back, (hform back).mpr hback.symm⟩

end SdkEvidence.Text
