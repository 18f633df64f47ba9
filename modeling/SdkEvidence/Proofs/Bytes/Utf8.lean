import SdkEvidence.Bytes.Utf8

/-!
# The order of encoded texts

Texts are in the order of their characters, and UTF-8 keeps that order: the encodings are in the
order of their bytes (`encode_lt`).
-/
namespace SdkEvidence.Utf8

/-- A smaller character has a smaller encoding, whatever follows. -/
theorem encodeChar_lt {c d : Char} (h : c < d) (s t : List UInt8) :
    String.utf8EncodeChar c ++ s < String.utf8EncodeChar d ++ t := by
  have hlt : c.val.toNat < d.val.toNat := h
  have hbound : d.val.toNat < 0x110000 := by
    have hvalid := d.valid
    simp only [UInt32.isValidChar, Nat.isValidChar] at hvalid
    omega
  unfold String.utf8EncodeChar
  generalize c.val.toNat = m at hlt
  generalize d.val.toNat = n at hlt hbound
  -- the first group of bits in which two encodings of four bytes differ
  have hgroup : m / 262144 < n / 262144 ∨ m / 262144 = n / 262144 ∧ (m / 4096 < n / 4096 ∨
      m / 4096 = n / 4096 ∧ (m / 64 < n / 64 ∨ m / 64 = n / 64)) := by
    omega
  dsimp only
  repeat' split
  all_goals simp only [List.cons_append, List.nil_append, List.cons_lt_cons_iff,
    UInt8.lt_iff_toNat_lt, ← UInt8.toNat_inj, UInt8.toNat_ofNat']
  all_goals first
    | omega
    | rcases hgroup with hgroup | ⟨heq, hgroup | ⟨heq', hgroup | hgroup⟩⟩ <;> omega

theorem encode_toList (text : String) :
    (encode text).data.toList = text.toList.flatMap String.utf8EncodeChar := by
  rw [encode, String.toUTF8_eq_toByteArray, ← String.utf8Encode_toList]
  simp [List.utf8Encode]

theorem flatMap_encodeChar_lt {a b : List Char} (h : a < b) :
    a.flatMap String.utf8EncodeChar < b.flatMap String.utf8EncodeChar := by
  induction a generalizing b with
  | nil =>
    cases b with
    | nil => exact absurd h (List.not_lt_nil _)
    | cons d b =>
      obtain ⟨byte, bytes, hbytes⟩ :=
        List.exists_cons_of_ne_nil (String.utf8EncodeChar_ne_nil (c := d))
      simp [hbytes]
  | cons c a ih =>
    cases b with
    | nil => exact absurd h (List.not_lt_nil _)
    | cons d b =>
      rcases List.cons_lt_cons_iff.mp h with hlt | ⟨rfl, hlt⟩
      · exact encodeChar_lt hlt _ _
      · rw [List.flatMap_cons, List.flatMap_cons]
        exact List.append_left_lt (ih hlt)

/-- Encoding keeps the order of texts. -/
theorem encode_lt {a b : String} (h : a < b) :
    (encode a).data.toList < (encode b).data.toList := by
  rw [encode_toList, encode_toList]
  exact flatMap_encodeChar_lt h

end SdkEvidence.Utf8
