import Mathlib.Data.List.Forall2
import Mathlib.Data.List.TakeWhile
import SdkEvidence.Bytes.Utf8
import SdkEvidence.Proofs.Text.LetterCase

/-!
# The case of ASCII letters in bytes

Bytes that differ in the case of ASCII letters only are read as texts that do, however ill-formed
the bytes between the letters are (`decodeLossy_sameLetters`). A letter is a character on its own
and belongs to no other, so both readings are cut at the same places.
-/
namespace SdkEvidence.Utf8

/-- The small letter of a byte that is a capital ASCII letter, or else the byte. -/
def smallLetter (b : UInt8) : UInt8 :=
  if 0x41 ≤ b ∧ b ≤ 0x5A then b + 0x20 else b

/-- Whether two bytes are equal but for the case of an ASCII letter. -/
def SameLetter (b c : UInt8) : Prop :=
  smallLetter b = smallLetter c

/-- Whether two contents differ in the case of ASCII letters only. -/
def SameLetters (content other : ByteArray) : Prop :=
  content.toList.map smallLetter = other.toList.map smallLetter

theorem SameLetter.eq_or_lt {b c : UInt8} (h : SameLetter b c) :
    b = c ∨ b < 0x80 ∧ c < 0x80 := by
  unfold SameLetter smallLetter at h
  rw [← UInt8.toNat_inj, UInt8.lt_iff_toNat_lt, UInt8.lt_iff_toNat_lt]
  split at h <;> split at h <;> simp_all [UInt8.le_iff_toNat_le, ← UInt8.toNat_inj] <;> omega

/-- The characters of ASCII bytes follow the case of the bytes. -/
theorem toLower_ofNat {b : UInt8} (h : b < 0x80) :
    (Char.ofNat b.toNat).toLower = Char.ofNat (smallLetter b).toNat := by
  have hall : ∀ n < 128, (Char.ofNat n).toLower = Char.ofNat (smallLetter n.toUInt8).toNat := by
    decide
  have := hall b.toNat h
  simpa using this

/-- An ASCII byte never stands inside the encoding of another character. -/
theorem not_within {b least greatest : UInt8} (hb : b < 0x80) (hleast : 0x80 ≤ least) :
    (decide (least ≤ b) && decide (b ≤ greatest)) = false := by
  have hlt : b < least := UInt8.lt_of_lt_of_le hb hleast
  simp [UInt8.not_le.mpr hlt]

theorem SameLetter.within_eq {b c least greatest : UInt8} (h : SameLetter b c)
    (hleast : 0x80 ≤ least) : (decide (least ≤ b) && decide (b ≤ greatest))
      = (decide (least ≤ c) && decide (c ≤ greatest)) := by
  rcases h.eq_or_lt with rfl | ⟨hb, hc⟩
  · rfl
  · rw [not_within hb hleast, not_within hc hleast]

theorem le_secondRange (first : UInt8) : 0x80 ≤ (secondRange first).1 := by
  unfold secondRange
  repeat' split
  all_goals decide

theorem continuations_congr {rest other : List UInt8} (h : List.Forall₂ SameLetter rest other)
    (wanted : Nat) : continuations wanted rest = continuations wanted other := by
  induction h generalizing wanted with
  | nil => rfl
  | @cons b c rest other hbyte hrest ih =>
    cases wanted with
    | zero => rfl
    | succ wanted =>
      have hcontinues : isContinuation b = isContinuation c := hbyte.within_eq (by decide)
      have hmore := ih wanted
      unfold continuations at hmore ⊢
      rw [List.take_succ_cons, List.take_succ_cons, List.takeWhile_cons, List.takeWhile_cons,
        hcontinues]
      split
      next => rw [List.length_cons, List.length_cons, hmore]
      next => rfl

theorem extent_congr (first : UInt8) {rest other : List UInt8}
    (h : List.Forall₂ SameLetter rest other) : extent first rest = extent first other := by
  unfold extent
  cases h with
  | nil => rfl
  | cons hbyte hrest =>
    cases followers first with
    | none => rfl
    | some wanted =>
      cases wanted with
      | zero => rfl
      | succ wanted =>
        dsimp only
        rw [hbyte.within_eq (le_secondRange first), continuations_congr hrest]

theorem le_of_mem_continuations {b : UInt8} {wanted : Nat} {more : List UInt8}
    (h : b ∈ more.take (continuations wanted more)) : 0x80 ≤ b := by
  have htake := List.prefix_iff_eq_take.mp
    ((List.takeWhile_prefix isContinuation).trans (List.take_prefix wanted more))
  have hcontinues : isContinuation b = true := by
    refine List.mem_takeWhile_imp (l := more.take wanted) ?_
    rw [htake]
    exact h
  simp only [isContinuation, Bool.and_eq_true, decide_eq_true_eq] at hcontinues
  exact hcontinues.1

/-- The bytes that belong with a first byte are no ASCII bytes. -/
theorem le_of_mem_extent {first b : UInt8} {rest : List UInt8}
    (h : b ∈ rest.take (extent first rest)) : 0x80 ≤ b := by
  unfold extent at h
  split at h
  next wanted second more hfollowers =>
    dsimp only at h
    split at h
    next hsecond =>
      rw [Nat.add_comm, List.take_succ_cons, List.mem_cons] at h
      rcases h with rfl | h
      · have hle : (secondRange first).1 ≤ b := by simp_all
        exact UInt8.le_trans (le_secondRange first) hle
      · exact le_of_mem_continuations h
    next => simp at h
  next => simp at h

theorem take_eq_of_le {rest other : List UInt8} (h : List.Forall₂ SameLetter rest other) (n : Nat)
    (hle : ∀ b ∈ rest.take n, 0x80 ≤ b) : rest.take n = other.take n := by
  induction h generalizing n with
  | nil => rfl
  | @cons b c rest other hbyte hrest ih =>
    cases n with
    | zero => rfl
    | succ n =>
      rw [List.take_succ_cons] at hle
      obtain ⟨hb, hmore⟩ := List.forall_mem_cons.mp hle
      have heq : b = c := hbyte.eq_or_lt.resolve_right fun hlt => UInt8.not_lt.mpr hb hlt.1
      rw [List.take_succ_cons, List.take_succ_cons, heq, ih n hmore]

theorem readOne_ascii {first : UInt8} (h : first < 0x80) (rest : List UInt8) :
    readOne first rest = (some (Char.ofNat first.toNat), 0) := by
  have hfollowers : followers first = some 0 := by simp [followers, h]
  have hextent : extent first rest = 0 := by simp [extent, hfollowers]
  simp [readOne, hfollowers, hextent, leadBits]

/-- Both readings take as many bytes for the next character, which is the same but for its case. -/
theorem readOne_congr {first other : UInt8} {rest more : List UInt8}
    (hfirst : SameLetter first other) (hrest : List.Forall₂ SameLetter rest more) :
    (readOne first rest).2 = (readOne other more).2 ∧
      (readOne first rest).1.map Char.toLower = (readOne other more).1.map Char.toLower := by
  rcases hfirst.eq_or_lt with rfl | ⟨hlt, hlt'⟩
  · have hread : readOne first rest = readOne first more := by
      simp only [readOne, ← extent_congr first hrest,
        take_eq_of_le hrest _ fun b hb => le_of_mem_extent hb]
    rw [hread]
    exact ⟨rfl, rfl⟩
  · rw [readOne_ascii hlt, readOne_ascii hlt']
    refine ⟨rfl, ?_⟩
    rw [Option.map_some, Option.map_some, toLower_ofNat hlt, toLower_ofNat hlt', hfirst]

theorem readOnto_congr {bytes other : List UInt8} (h : List.Forall₂ SameLetter bytes other)
    (skip : Nat) {done done' : List (Option Char)}
    (hdone : done.map (Option.map Char.toLower) = done'.map (Option.map Char.toLower)) :
    (readOnto skip done bytes).map (Option.map Char.toLower)
      = (readOnto skip done' other).map (Option.map Char.toLower) := by
  induction h generalizing skip done done' with
  | nil => simp [readOnto, hdone]
  | cons hbyte hrest ih =>
    cases skip with
    | succ skip => exact ih skip hdone
    | zero =>
      obtain ⟨htaken, hchar⟩ := readOne_congr hbyte hrest
      rw [readOnto, readOnto, htaken]
      exact ih _ (by rw [List.map_cons, List.map_cons, hchar, hdone])

/-- Contents that differ in the case of letters only are read as texts that do. -/
theorem decodeLossy_sameLetters {content other : ByteArray} (h : SameLetters content other) :
    Text.SameLetters (decodeLossy content).toList (decodeLossy other).toList := by
  have hbytes : List.Forall₂ SameLetter content.toList other.toList := by
    have heq : List.Forall₂ Eq (content.toList.map smallLetter) (other.toList.map smallLetter) :=
      List.forall₂_eq_eq_eq ▸ h
    rwa [List.forall₂_map_left_iff, List.forall₂_map_right_iff] at heq
  have hread : (read content.toList).map (Option.map Char.toLower)
      = (read other.toList).map (Option.map Char.toLower) := readOnto_congr hbytes 0 rfl
  have hchars (units : List (Option Char)) :
      (units.map fun unit => unit.getD '\uFFFD').map Char.toLower
        = (units.map (Option.map Char.toLower)).map fun unit => unit.getD '\uFFFD' := by
    rw [List.map_map, List.map_map]
    refine List.map_congr_left fun unit _ => ?_
    cases unit <;> rfl
  unfold Text.SameLetters decodeLossy
  rw [String.toList_ofList, String.toList_ofList, hchars, hchars, hread]

end SdkEvidence.Utf8
