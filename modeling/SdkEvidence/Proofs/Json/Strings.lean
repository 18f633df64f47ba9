import SdkEvidence.Json.Reader
import SdkEvidence.Json.Writer

/-!
# Strings as literals

A string literal is read back as the text that it was written from, whatever its characters
(`readString_quoted`). The escape of a code unit is read together with the next one, in case the two
are a pair of surrogates; for a unit that stands for a character this makes no difference
(`readString_unit`).
-/
namespace SdkEvidence

theorem Hex.digitValue?_digit {n : Nat} (hn : n < 16) :
    Hex.digitValue? (Hex.digit n) = some n := by
  have hall : ∀ n < 16, Hex.digitValue? (Hex.digit n) = some n := by decide
  exact hall n hn

/-- Two digits after two zeros stand for a number of one byte. -/
theorem Hex.number?_byte {n : Nat} (hn : n < 256) :
    Hex.number? ['0', '0', Hex.digit (n / 16), Hex.digit (n % 16)] = some n := by
  have hzero : Hex.digitValue? '0' = some 0 := by decide
  simp [Hex.number?, hzero, Hex.digitValue?_digit (show n / 16 < 16 by omega),
    Hex.digitValue?_digit (show n % 16 < 16 by omega)]
  omega

namespace Json

/-- An escape that no other one follows is read by itself. -/
theorem readString_single {rest : List Char}
    (h : ∀ e f g h rest', rest ≠ '\\' :: 'u' :: e :: f :: g :: h :: rest') (done : List Char)
    (a b c d : Char) :
    readString done ('\\' :: 'u' :: a :: b :: c :: d :: rest)
      = ((Hex.number? [a, b, c, d]).bind plainUnit?).bind fun x => readString (x :: done) rest := by
  rw [readString]
  · cases (Hex.number? [a, b, c, d]).bind plainUnit? <;> rfl
  · exact h

/-- An escape without a number is not read. -/
theorem readString_unit_none {a b c d : Char} (hn : Hex.number? [a, b, c, d] = none)
    (done rest : List Char) :
    readString done ('\\' :: 'u' :: a :: b :: c :: d :: rest) = none := by
  by_cases h : ∃ e f g h rest', rest = '\\' :: 'u' :: e :: f :: g :: h :: rest'
  · obtain ⟨e, f, g, h, rest', rfl⟩ := h
    rw [readString, hn]
  · rw [readString_single (by simpa using h), hn, Option.bind_none, Option.bind_none]

/-- The escape of a unit that is no surrogate is read as its character, whatever follows. -/
theorem readString_unit {a b c d x : Char} {n : Nat} (hn : Hex.number? [a, b, c, d] = some n)
    (hx : plainUnit? n = some x) (done rest : List Char) :
    readString done ('\\' :: 'u' :: a :: b :: c :: d :: rest) = readString (x :: done) rest := by
  induction hl : rest.length using Nat.strongRecOn generalizing a b c d x n done rest with
  | ind l ih =>
    by_cases h : ∃ e f g h rest', rest = '\\' :: 'u' :: e :: f :: g :: h :: rest'
    · -- the two escapes are taken apart again, and the second one is read by itself
      obtain ⟨e, f, g, h, rest', rfl⟩ := h
      conv => lhs; rw [readString, hn]
      cases hlow : Hex.number? [e, f, g, h] with
      | none => exact (readString_unit_none hlow _ _).symm
      | some low =>
        dsimp only
        rw [hx]
        dsimp only
        cases hy : plainUnit? low with
        | none => rfl
        | some y =>
          have hshorter : rest'.length < l := by
            rw [← hl]
            simp only [List.length_cons]
            omega
          exact (ih _ hshorter hlow hy (x :: done) rest' rfl).symm
    · rw [readString_single (by simpa using h), hn, Option.bind_some, hx, Option.bind_some]

/-- A written character is read back. -/
theorem readString_escaped (c : Char) (done rest : List Char) :
    readString done (escaped c ++ rest) = readString (c :: done) rest := by
  unfold escaped
  iterate 7
    split
    next h => subst h; simp [readString, shortEscape?]
  split
  next h =>
    have hunit : plainUnit? c.toNat = some c := by
      rw [plainUnit?, if_neg (by omega), Char.ofNat_toNat]
    exact readString_unit (Hex.number?_byte (by omega)) hunit done rest
  next hquote hslash _ _ _ _ _ h =>
    rw [List.singleton_append, readString, if_neg (not_or.mpr ⟨h, hslash⟩)]
    all_goals simp [hquote, hslash]

/-- A text after its opening quote is read up to its closing quote. -/
theorem readString_flatMap (text done rest : List Char) :
    readString done (text.flatMap escaped ++ '"' :: rest)
      = some (String.ofList (done.reverse ++ text), rest) := by
  induction text generalizing done with
  | nil => simp [readString]
  | cons c text ih =>
    rw [List.flatMap_cons, List.append_assoc, readString_escaped, ih, List.reverse_cons,
      List.append_assoc, List.singleton_append]

/-- A string literal is read back, after its opening quote. -/
theorem readString_quoted (s : String) (rest : List Char) :
    ∃ text, quoted s ++ rest = '"' :: text ∧ readString [] text = some (s, rest) := by
  refine ⟨s.toList.flatMap escaped ++ '"' :: rest, ?_, ?_⟩
  · simp [quoted]
  · rw [readString_flatMap, List.reverse_nil, List.nil_append, String.ofList_toList]

end Json
end SdkEvidence
