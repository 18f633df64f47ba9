import Mathlib.Data.List.Basic
import Mathlib.Data.List.TakeWhile
import Mathlib.Data.Option.Basic
import SdkEvidence.Proofs.Bytes.Utf8

/-!
# Reading encoded texts

The bytes that the reader takes for a character are those that encode it (`readOne_eq_some_iff`), so
strict reading takes bytes for a text exactly if they encode that text (`decode?_eq_some_iff`).
-/
namespace SdkEvidence.Utf8

/-! ## Bytes that spell a character -/

/-- A byte continues a character. -/
def Continues (b : UInt8) : Prop :=
  128 ≤ b.toNat ∧ b.toNat ≤ 191

/-- The bytes spell the character of a number in one of the four widths. No number has a form that
is wider than it needs, and surrogates and numbers beyond the last character have none. -/
def Spells (n : Nat) : List UInt8 → Prop
  | [a] => a.toNat < 128 ∧ n = a.toNat
  | [a, b] => 194 ≤ a.toNat ∧ a.toNat ≤ 223 ∧ Continues b ∧ n = a.toNat % 32 * 64 + b.toNat % 64
  | [a, b, c] =>
      224 ≤ a.toNat ∧ a.toNat ≤ 239 ∧ Continues b ∧ (a.toNat = 224 → 160 ≤ b.toNat) ∧
        (a.toNat = 237 → b.toNat ≤ 159) ∧ Continues c ∧
        n = (a.toNat % 16 * 64 + b.toNat % 64) * 64 + c.toNat % 64
  | [a, b, c, d] =>
      240 ≤ a.toNat ∧ a.toNat ≤ 244 ∧ Continues b ∧ (a.toNat = 240 → 144 ≤ b.toNat) ∧
        (a.toNat = 244 → b.toNat ≤ 143) ∧ Continues c ∧ Continues d ∧
        n = ((a.toNat % 8 * 64 + b.toNat % 64) * 64 + c.toNat % 64) * 64 + d.toNat % 64
  | _ => False

/-- What is spelled is a character. -/
theorem Spells.isValidChar {n : Nat} {bytes : List UInt8} (h : Spells n bytes) :
    n.isValidChar := by
  rw [Nat.isValidChar]
  match bytes, h with
  | [_], h | [_, _], h | [_, _, _], h | [_, _, _, _], h =>
    simp only [Spells, Continues] at h
    omega

theorem Spells.toNat_ofNat {n : Nat} {bytes : List UInt8} (h : Spells n bytes) :
    (Char.ofNat n).toNat = n := by
  rw [Char.ofNat, dif_pos h.isValidChar]
  rfl

/-- How many bytes spell a number is told by its size. -/
theorem Spells.length_eq {n : Nat} {bytes : List UInt8} (h : Spells n bytes) :
    bytes.length = if n < 128 then 1 else if n < 2048 then 2 else if n < 65536 then 3 else 4 := by
  match bytes, h with
  | [_], h | [_, _], h | [_, _, _], h | [_, _, _, _], h =>
    simp only [Spells, Continues] at h
    simp only [List.length_cons, List.length_nil]
    split_ifs <;> omega

theorem Spells.unique {n : Nat} {bytes other : List UInt8} (h : Spells n bytes)
    (hother : Spells n other) : bytes = other := by
  have hlength : bytes.length = other.length := h.length_eq.trans hother.length_eq.symm
  match bytes, h, other, hother with
  | [_], h, [_], h' | [_, _], h, [_, _], h' | [_, _, _], h, [_, _, _], h'
  | [_, _, _, _], h, [_, _, _, _], h' =>
    simp only [Spells, Continues] at h h'
    simp only [List.cons.injEq, and_true, ← UInt8.toNat_inj]
    omega

theorem toNat_ofNat_of_lt {n : Nat} (h : n < 256) : (UInt8.ofNat n).toNat = n :=
  UInt8.toNat_ofNat_of_lt' h

theorem spells_encodeChar (c : Char) : Spells c.toNat (String.utf8EncodeChar c) := by
  have hvalid : c.val.toNat < 0xD800 ∨ 0xDFFF < c.val.toNat ∧ c.val.toNat < 0x110000 := c.valid
  unfold String.utf8EncodeChar
  rw [Char.toNat]
  generalize c.val.toNat = n at hvalid
  dsimp only
  split
  next =>
    rw [Spells, toNat_ofNat_of_lt (by omega)]
    omega
  next =>
    split
    next =>
      simp only [Spells, Continues, toNat_ofNat_of_lt (show n / 64 % 32 + 192 < 256 by omega),
        toNat_ofNat_of_lt (show n % 64 + 128 < 256 by omega)]
      omega
    next =>
      split
      next =>
        simp only [Spells, Continues, toNat_ofNat_of_lt (show n / 4096 % 16 + 224 < 256 by omega),
          toNat_ofNat_of_lt (show n / 64 % 64 + 128 < 256 by omega),
          toNat_ofNat_of_lt (show n % 64 + 128 < 256 by omega)]
        omega
      next =>
        simp only [Spells, Continues, toNat_ofNat_of_lt (show n / 262144 % 8 + 240 < 256 by omega),
          toNat_ofNat_of_lt (show n / 4096 % 64 + 128 < 256 by omega),
          toNat_ofNat_of_lt (show n / 64 % 64 + 128 < 256 by omega),
          toNat_ofNat_of_lt (show n % 64 + 128 < 256 by omega)]
        omega

/-- The bytes that spell a character are its encoding. -/
theorem spells_iff {c : Char} {bytes : List UInt8} :
    Spells c.toNat bytes ↔ bytes = String.utf8EncodeChar c :=
  ⟨fun h => h.unique (spells_encodeChar c), fun h => h ▸ spells_encodeChar c⟩

/-! ## The reader -/

theorem continuations_eq_iff {wanted : Nat} {rest : List UInt8} :
    continuations wanted rest = wanted ↔
      ∃ front back, rest = front ++ back ∧ front.length = wanted ∧ ∀ b ∈ front, Continues b := by
  have hcontinues (front : List UInt8) :
      front.takeWhile isContinuation = front ↔ ∀ b ∈ front, Continues b := by
    simp [List.takeWhile_eq_self_iff, isContinuation, Continues, UInt8.le_iff_toNat_le]
  rw [continuations]
  constructor
  · intro h
    have htake : (rest.take wanted).takeWhile isContinuation = rest.take wanted := by
      refine (List.takeWhile_prefix _).eq_of_length_le ?_
      rw [h]
      exact List.length_take_le _ _
    rw [htake] at h
    exact ⟨_, _, (List.take_append_drop wanted rest).symm, h, (hcontinues _).mp htake⟩
  · rintro ⟨front, back, rfl, rfl, hfront⟩
    rw [List.take_left, (hcontinues _).mpr hfront]

/-- A first byte gets the bytes that it asks for. -/
theorem extent_eq_iff {first : UInt8} {rest : List UInt8} {wanted : Nat}
    (h : followers first = some (wanted + 1)) :
    extent first rest = wanted + 1 ↔
      ∃ second front back, rest = second :: (front ++ back) ∧ front.length = wanted ∧
        ((secondRange first).1 ≤ second ∧ second ≤ (secondRange first).2) ∧
        ∀ b ∈ front, Continues b := by
  cases rest with
  | nil => simp [extent, h]
  | cons second more =>
    simp only [extent, h]
    split
    next hsecond =>
      simp only [Bool.and_eq_true, decide_eq_true_eq] at hsecond
      rw [Nat.add_comm 1, Nat.add_right_cancel_iff, continuations_eq_iff]
      constructor
      · rintro ⟨front, back, rfl, hlength, hfront⟩
        exact ⟨second, front, back, rfl, hlength, hsecond, hfront⟩
      · rintro ⟨_, front, back, heq, hlength, -, hfront⟩
        obtain ⟨rfl, rfl⟩ := List.cons.inj heq
        exact ⟨front, back, rfl, hlength, hfront⟩
    next hsecond =>
      refine iff_of_false (by simp) ?_
      rintro ⟨_, front, back, heq, -, hrange, -⟩
      obtain ⟨rfl, rfl⟩ := List.cons.inj heq
      exact hsecond (by simp [hrange])

theorem followers_eq (first : UInt8) : followers first =
    if first.toNat < 128 then some 0
    else if 194 ≤ first.toNat ∧ first.toNat ≤ 223 then some 1
    else if 224 ≤ first.toNat ∧ first.toNat ≤ 239 then some 2
    else if 240 ≤ first.toNat ∧ first.toNat ≤ 244 then some 3
    else none := by
  simp [followers, UInt8.lt_iff_toNat_lt, UInt8.le_iff_toNat_le]

theorem secondRange_iff (first second : UInt8) :
    ((secondRange first).1 ≤ second ∧ second ≤ (secondRange first).2) ↔
      Continues second ∧ (first.toNat = 224 → 160 ≤ second.toNat) ∧
        (first.toNat = 237 → second.toNat ≤ 159) ∧ (first.toNat = 240 → 144 ≤ second.toNat) ∧
        (first.toNat = 244 → second.toNat ≤ 143) := by
  unfold secondRange Continues
  simp only [← UInt8.toNat_inj]
  repeat' split
  all_goals simp_all [UInt8.le_iff_toNat_le]
  all_goals omega

/-- A first byte that gets all it asks for spells a character with what it gets. -/
theorem spells_of_extent {first : UInt8} {rest : List UInt8} {taken : Nat}
    (h : followers first = some taken) (hextent : extent first rest = taken) :
    ∃ more back n, rest = more ++ back ∧ more.length = taken ∧ Spells n (first :: more) := by
  have hfirst := h
  rw [followers_eq] at hfirst
  cases taken with
  | zero =>
    refine ⟨[], rest, first.toNat, rfl, rfl, ?_, rfl⟩
    split_ifs at hfirst <;> simp_all
  | succ wanted =>
    obtain ⟨second, front, back, rfl, hlength, hrange, hfront⟩ := (extent_eq_iff h).mp hextent
    rw [secondRange_iff] at hrange
    obtain ⟨hsecond, hleast, hsurrogate, hwide, hgreatest⟩ := hrange
    refine ⟨second :: front, back, ?_⟩
    split_ifs at hfirst with h0 h1 h2 h3
    · cases hfirst
    · obtain rfl : wanted = 0 := by simpa using hfirst.symm
      obtain rfl := List.length_eq_zero_iff.mp hlength
      exact ⟨_, rfl, rfl, h1.1, h1.2, hsecond, rfl⟩
    · obtain rfl : wanted = 1 := by simpa using hfirst.symm
      obtain ⟨third, rfl⟩ := List.length_eq_one_iff.mp hlength
      exact ⟨_, rfl, rfl, h2.1, h2.2, hsecond, hleast, hsurrogate, hfront third (by simp), rfl⟩
    · obtain rfl : wanted = 2 := by simpa using hfirst.symm
      obtain ⟨third, fourth, rfl⟩ := List.length_eq_two.mp hlength
      exact ⟨_, rfl, rfl, h3.1, h3.2, hsecond, hwide, hgreatest, hfront third (by simp),
        hfront fourth (by simp), rfl⟩

/-- A first byte gets all it asks for where it spells a character with what follows. -/
theorem Spells.extent_eq {n : Nat} {first : UInt8} {more : List UInt8}
    (h : Spells n (first :: more)) (back : List UInt8) :
    followers first = some more.length ∧ extent first (more ++ back) = more.length := by
  match more, h with
  | [], h =>
    have hfollowers : followers first = some 0 := by rw [followers_eq, if_pos h.1]
    exact ⟨hfollowers, by simp [extent, hfollowers]⟩
  | [b], ⟨hlow, hhigh, hb, _⟩ =>
    have hfollowers : followers first = some 1 := by
      rw [followers_eq, if_neg (by omega), if_pos ⟨hlow, hhigh⟩]
    have hrange := (secondRange_iff first b).mpr
      ⟨hb, by omega, by omega, by omega, by omega⟩
    exact ⟨hfollowers, (extent_eq_iff hfollowers).mpr ⟨b, [], back, rfl, rfl, hrange, by simp⟩⟩
  | [b, c], ⟨hlow, hhigh, hb, hleast, hsurrogate, hc, _⟩ =>
    have hfollowers : followers first = some 2 := by
      rw [followers_eq, if_neg (by omega), if_neg (by omega), if_pos ⟨hlow, hhigh⟩]
    have hrange := (secondRange_iff first b).mpr
      ⟨hb, hleast, hsurrogate, by omega, by omega⟩
    exact ⟨hfollowers, (extent_eq_iff hfollowers).mpr
      ⟨b, [c], back, rfl, rfl, hrange, by simpa using hc⟩⟩
  | [b, c, d], ⟨hlow, hhigh, hb, hwide, hgreatest, hc, hd, _⟩ =>
    have hfollowers : followers first = some 3 := by
      rw [followers_eq, if_neg (by omega), if_neg (by omega), if_neg (by omega),
        if_pos ⟨hlow, hhigh⟩]
    have hrange := (secondRange_iff first b).mpr
      ⟨hb, by omega, by omega, hwide, hgreatest⟩
    exact ⟨hfollowers, (extent_eq_iff hfollowers).mpr
      ⟨b, [c, d], back, rfl, rfl, hrange, by simpa using ⟨hc, hd⟩⟩⟩

/-- The number that the bits of the bytes make is the one that they spell. -/
theorem Spells.foldl_eq {n : Nat} {first : UInt8} {more : List UInt8}
    (h : Spells n (first :: more)) :
    more.foldl (fun n b => n * 64 + payload b) (leadBits first more.length) = n := by
  match more, h with
  | [], h => exact h.2.symm
  | [b], ⟨_, _, _, hn⟩ => exact hn.symm
  | [b, c], ⟨_, _, _, _, _, _, hn⟩ => exact hn.symm
  | [b, c, d], ⟨_, _, _, _, _, _, _, hn⟩ => exact hn.symm

/-- The reader takes bytes for a character exactly if they encode it. -/
theorem readOne_eq_some_iff {first : UInt8} {rest : List UInt8} {c : Char} {taken : Nat} :
    readOne first rest = (some c, taken) ↔
      ∃ more back, rest = more ++ back ∧ more.length = taken ∧
        first :: more = String.utf8EncodeChar c := by
  constructor
  · intro h
    rw [readOne] at h
    split at h
    next hfollowers =>
      obtain ⟨hpoint, rfl⟩ := Prod.mk.inj h
      obtain ⟨more, back, n, rfl, hlength, hspells⟩ := spells_of_extent hfollowers rfl
      rw [← hlength, List.take_left, hspells.foldl_eq, Option.some_inj] at hpoint
      refine ⟨more, back, rfl, hlength, spells_iff.mp ?_⟩
      rwa [← hpoint, hspells.toNat_ofNat]
    next => cases (Prod.mk.inj h).1
  · rintro ⟨more, back, rfl, rfl, hencoded⟩
    have hspells := spells_iff.mpr hencoded
    obtain ⟨hfollowers, hextent⟩ := hspells.extent_eq back
    simp only [readOne, hextent, if_pos hfollowers, List.take_left, hspells.foldl_eq]
    rw [Char.ofNat_toNat]

/-! ## Texts -/

theorem readOnto_eq (skip : Nat) (done : List (Option Char)) (bytes : List UInt8) :
    readOnto skip done bytes = done.reverse ++ read (bytes.drop skip) := by
  induction bytes generalizing skip done with
  | nil => simp [readOnto, read]
  | cons b rest ih =>
    cases skip with
    | succ skip => rw [readOnto, ih, List.drop_succ_cons]
    | zero => rw [List.drop_zero, read, readOnto, readOnto, ih, ih]; simp

theorem read_cons (b : UInt8) (rest : List UInt8) :
    read (b :: rest) = (readOne b rest).1 :: read (rest.drop (readOne b rest).2) := by
  rw [read, readOnto, readOnto_eq, List.reverse_singleton, List.singleton_append]

/-- The bytes of characters. -/
def bytesOf (text : List Char) : List UInt8 :=
  text.flatMap String.utf8EncodeChar

@[simp]
theorem bytesOf_append (text other : List Char) :
    bytesOf (text ++ other) = bytesOf text ++ bytesOf other :=
  List.flatMap_append

theorem bytesOf_cons (c : Char) (text : List Char) :
    bytesOf (c :: text) = String.utf8EncodeChar c ++ bytesOf text :=
  List.flatMap_cons

theorem length_bytesOf {text : List Char} (h : ∀ c ∈ text, c.toNat < 128) :
    (bytesOf text).length = text.length := by
  induction text with
  | nil => rfl
  | cons c text ih =>
    obtain ⟨hc, htext⟩ := List.forall_mem_cons.mp h
    have hone : (String.utf8EncodeChar c).length = 1 := by
      rw [String.length_utf8EncodeChar, Char.utf8Size_eq_one_iff, UInt32.le_iff_toNat_le]
      exact Nat.le_of_lt_succ hc
    rw [bytesOf_cons, List.length_append, hone, ih htext, List.length_cons, Nat.add_comm]

/-- What is encoded is read, whatever bytes follow. -/
theorem read_bytesOf_append (text : List Char) (tail : List UInt8) :
    read (bytesOf text ++ tail) = text.map some ++ read tail := by
  induction text with
  | nil => rfl
  | cons c text ih =>
    obtain ⟨b, more, hencoded⟩ := List.exists_cons_of_ne_nil (String.utf8EncodeChar_ne_nil (c := c))
    have hone := readOne_eq_some_iff.mpr ⟨more, bytesOf text ++ tail, rfl, rfl, hencoded.symm⟩
    rw [bytesOf_cons, hencoded, List.append_assoc, List.cons_append, read_cons, hone,
      List.drop_left, ih, List.map_cons, List.cons_append]

theorem read_bytesOf (text : List Char) : read (bytesOf text) = text.map some := by
  have hread := read_bytesOf_append text []
  rwa [List.append_nil, show read [] = [] from rfl, List.append_nil] at hread

theorem eq_bytesOf_of_read {bytes : List UInt8} {text : List Char}
    (h : read bytes = text.map some) : bytes = bytesOf text := by
  induction text generalizing bytes with
  | nil =>
    cases bytes with
    | nil => rfl
    | cons b rest => simp [read_cons] at h
  | cons c text ih =>
    cases bytes with
    | nil => simp [read, readOnto] at h
    | cons b rest =>
      rw [read_cons, List.map_cons, List.cons.injEq] at h
      obtain ⟨hone, hrest⟩ := h
      obtain ⟨more, back, rfl, hlength, hencoded⟩ :=
        readOne_eq_some_iff.mp (Prod.ext hone rfl : readOne b rest = (some c, (readOne b rest).2))
      rw [← hlength, List.drop_left] at hrest
      rw [bytesOf_cons, ← hencoded, ← ih hrest, List.cons_append]

/-- A text whose encoding starts as that of another text starts with the other text. -/
theorem exists_of_bytesOf_append {text other : List Char} {rest : List UInt8}
    (h : bytesOf text ++ rest = bytesOf other) :
    ∃ more, other = text ++ more ∧ rest = bytesOf more := by
  have hread : text.map some ++ read rest = other.map some := by
    rw [← read_bytesOf_append, h, read_bytesOf]
  obtain ⟨front, more, rfl, hfront, hmore⟩ := List.map_eq_append_iff.mp hread.symm
  obtain rfl := List.map_injective_iff.mpr (Option.some_injective _) hfront
  exact ⟨more, rfl, eq_bytesOf_of_read hmore.symm⟩

theorem bytesOf_injective : Function.Injective bytesOf := by
  intro text other h
  have hread := congrArg read h
  rw [read_bytesOf, read_bytesOf] at hread
  exact List.map_injective_iff.mpr (Option.some_injective _) hread

/-- A byte of a character of its own stands in no other character. -/
theorem eq_singleton_of_mem_encodeChar {b : UInt8} {c : Char} (hb : b.toNat < 128)
    (h : b ∈ String.utf8EncodeChar c) : String.utf8EncodeChar c = [b] := by
  have hspells := spells_encodeChar c
  generalize String.utf8EncodeChar c = bytes at h hspells
  match bytes, hspells with
  | [a], _ => rw [List.mem_singleton.mp h]
  | [_, _], hspells | [_, _, _], hspells | [_, _, _, _], hspells =>
    simp only [Spells, Continues] at hspells
    simp only [List.mem_cons, List.not_mem_nil, or_false, ← UInt8.toNat_inj] at h
    omega

/-- Where the byte of a character of its own stands in the encoding of a text, the text is cut at
that character. -/
theorem exists_of_append_bytesOf {c : Char} {b : UInt8} (hc : String.utf8EncodeChar c = [b])
    {front back : List UInt8} {text : List Char} (h : front ++ b :: back = bytesOf text) :
    ∃ before after, text = before ++ c :: after ∧ front = bytesOf before ∧
      back = bytesOf after := by
  have hb : b.toNat < 128 := by
    have hspells := spells_encodeChar c
    rw [hc] at hspells
    exact hspells.1
  induction text generalizing front with
  | nil => simp [bytesOf] at h
  | cons d text ih =>
    rw [bytesOf_cons, List.append_eq_append_iff] at h
    -- the byte stands after the bytes of the first character, or it is the whole of them
    obtain ⟨more, hencoded, hrest⟩ | ⟨more, rfl, hrest⟩ := h
    · cases more with
      | nil =>
        obtain ⟨before, after, rfl, hfront, rfl⟩ := @ih [] hrest
        refine ⟨d :: before, after, rfl, ?_, rfl⟩
        rw [bytesOf_cons, ← hfront, hencoded]
        simp
      | cons a more =>
        obtain ⟨rfl, rfl⟩ := List.cons.inj hrest
        have hsingle := eq_singleton_of_mem_encodeChar hb (c := d) (by simp [hencoded])
        obtain rfl : c = d := by
          have hsame : bytesOf [c] = bytesOf [d] := by simp [bytesOf, hc, hsingle]
          simpa using bytesOf_injective hsame
        obtain ⟨rfl, rfl⟩ : front = [] ∧ more = [] := by
          simpa [hsingle, List.append_eq_singleton_iff] using hencoded.symm
        exact ⟨[], text, rfl, rfl, rfl⟩
    · obtain ⟨before, after, rfl, rfl, rfl⟩ := ih hrest.symm
      exact ⟨d :: before, after, rfl, (bytesOf_cons _ _).symm, rfl⟩

theorem byteArray_loop_eq (bytes : ByteArray) (i : Nat) (done : List UInt8) :
    ByteArray.toList.loop bytes i done = done.reverse ++ bytes.data.toList.drop i := by
  fun_induction ByteArray.toList.loop bytes i done with
  | case1 i done h ih =>
    have hdrop : bytes.data.toList.drop i = bytes.get! i :: bytes.data.toList.drop (i + 1) := by
      simpa [ByteArray.get!, h] using
        List.drop_eq_getElem_cons (l := bytes.data.toList) (i := i) h
    rw [ih, hdrop, List.reverse_cons, List.append_assoc, List.singleton_append]
  | case2 i done h =>
    have hdrop : bytes.data.toList.drop i = [] :=
      List.drop_eq_nil_iff.mpr (by simpa using Nat.le_of_not_gt h)
    rw [hdrop, List.append_nil]

theorem byteArray_toList_eq (bytes : ByteArray) : bytes.toList = bytes.data.toList := by
  rw [ByteArray.toList, byteArray_loop_eq, List.reverse_nil, List.nil_append, List.drop_zero]

/-- Strict reading is the inverse of encoding. -/
theorem decode?_eq_some_iff {bytes : ByteArray} {text : String} :
    decode? bytes = some text ↔ bytes.data.toList = bytesOf text.toList := by
  rw [decode?, byteArray_toList_eq]
  constructor
  · intro h
    rw [Option.ite_none_right_eq_some, Option.some_inj] at h
    obtain ⟨hall, rfl⟩ := h
    refine eq_bytesOf_of_read ?_
    rw [String.toList_ofList]
    generalize read bytes.data.toList = units at hall
    induction units with
    | nil => rfl
    | cons unit units ih =>
      rw [List.all_cons, Bool.and_eq_true, Option.isSome_iff_exists] at hall
      obtain ⟨⟨c, rfl⟩, hunits⟩ := hall
      simpa using ih hunits
  · intro h
    rw [h, read_bytesOf]
    simp [Function.comp_def]

end SdkEvidence.Utf8
