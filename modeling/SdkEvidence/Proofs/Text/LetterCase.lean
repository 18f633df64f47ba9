import Mathlib.Data.List.Basic
import SdkEvidence.Proofs.Text.Lower
import SdkEvidence.Text.Line

/-!
# The case of ASCII letters

Texts that differ in the case of ASCII letters only have one lower-case form
(`SameLetters.lower_eq`), also where a sigma looks at those letters, and break into lines alike
(`SameLetters.lines`).
-/
namespace SdkEvidence.Text

/-- The capital ASCII letters. -/
def capitals : List Char :=
  (List.range' 65 26).map Char.ofNat

theorem mem_capitals {c : Char} (hlow : 65 ≤ c.toNat) (hhigh : c.toNat ≤ 90) : c ∈ capitals := by
  refine List.mem_map.mpr ⟨c.toNat, ?_, Char.ofNat_toNat c⟩
  rw [List.mem_range'_1]
  omega

/-- A character that is no capital ASCII letter is its own small letter. -/
theorem mem_capitals_or_toLower_eq (c : Char) : c ∈ capitals ∨ c.toLower = c := by
  by_cases h : c.val ≥ 'A'.val ∧ c.val ≤ 'Z'.val
  · exact Or.inl (mem_capitals h.1 h.2)
  · exact Or.inr (dif_neg h)

/-- What holds of every capital letter and its small letter, and of every other character twice,
holds of every character and its small letter. -/
theorem toLower_forall {P : Char → Char → Prop} (hcapital : capitals.Forall fun c => P c.toLower c)
    (hother : ∀ c, P c c) (c : Char) : P c.toLower c := by
  rcases mem_capitals_or_toLower_eq c with hmem | heq
  · exact List.forall_iff_forall_mem.mp hcapital c hmem
  · rw [heq]
    exact hother c

theorem isCased_toLower (c : Char) : isCased c.toLower = isCased c :=
  toLower_forall (P := fun small c => isCased small = isCased c) (by decide) (fun _ => rfl) c

theorem isCaseIgnorable_toLower (c : Char) : isCaseIgnorable c.toLower = isCaseIgnorable c :=
  toLower_forall (P := fun small c => isCaseIgnorable small = isCaseIgnorable c) (by decide)
    (fun _ => rfl) c

theorem toLower_eq_newline_iff (c : Char) : c.toLower = '\n' ↔ c = '\n' :=
  toLower_forall (P := fun small c => small = '\n' ↔ c = '\n') (by decide) (fun _ => Iff.rfl) c

theorem toLower_eq_carriageReturn_iff (c : Char) : c.toLower = '\r' ↔ c = '\r' :=
  toLower_forall (P := fun small c => small = '\r' ↔ c = '\r') (by decide) (fun _ => Iff.rfl) c

theorem nearestIsCased_map_toLower (text : List Char) :
    nearestIsCased (text.map Char.toLower) = nearestIsCased text := by
  induction text with
  | nil => rfl
  | cons c rest ih =>
    rw [List.map_cons, nearestIsCased, nearestIsCased, isCaseIgnorable_toLower, isCased_toLower, ih]

/-- A character and its small letter have one lower-case form, whatever the case of the letters
around them: no letter is a sigma, and a sigma sees no difference. -/
theorem lowerAt_toLower (before after : List Char) (c : Char) :
    lowerAt (before.map Char.toLower) c.toLower (after.map Char.toLower)
      = lowerAt before c after := by
  rcases mem_capitals_or_toLower_eq c with hmem | heq
  · have hcapitals : capitals.Forall fun c =>
        c ≠ 'Σ' ∧ c.toLower ≠ 'Σ' ∧ lowerAt [] c.toLower [] = lowerAt [] c [] := by
      decide
    obtain ⟨hc, hsmall, hform⟩ := List.forall_iff_forall_mem.mp hcapitals c hmem
    rw [lowerAt_congr hsmall _ _ [] [], hform, lowerAt_congr hc [] [] before after]
  · simp only [heq, lowerAt, lowerSigma, nearestIsCased_map_toLower]

theorem lowerFrom_map_toLower (before text : List Char) :
    lowerFrom (before.map Char.toLower) (text.map Char.toLower) = lowerFrom before text := by
  induction text generalizing before with
  | nil => rfl
  | cons c rest ih =>
    rw [List.map_cons, lowerFrom, lowerFrom, lowerAt_toLower, ← List.map_cons, ih]

theorem lower_map_toLower (text : List Char) : lower (text.map Char.toLower) = lower text := by
  rw [lower_eq_lowerFrom, lower_eq_lowerFrom]
  exact lowerFrom_map_toLower [] text

theorem splitOn_newline_map_toLower (text : List Char) :
    (text.map Char.toLower).splitOn '\n' = (text.splitOn '\n').map (List.map Char.toLower) := by
  simp only [List.splitOn_eq_splitOnP]
  induction text with
  | nil => rfl
  | cons c rest ih =>
    obtain ⟨first, more, hrest⟩ :=
      List.exists_cons_of_ne_nil (List.splitOnP_ne_nil (· == '\n') rest)
    rw [List.map_cons, List.splitOnP_cons_eq_if_modifyHead, List.splitOnP_cons_eq_if_modifyHead,
      ih, hrest]
    by_cases hc : c = '\n'
    · simp [hc]
    · have hsmall : c.toLower ≠ '\n' := (toLower_eq_newline_iff c).not.mpr hc
      simp [hc, hsmall]

theorem dropCarriageReturn_map_toLower (line : List Char) :
    dropCarriageReturn (line.map Char.toLower) = (dropCarriageReturn line).map Char.toLower := by
  have hlast : (line.map Char.toLower).getLast? = some '\r' ↔ line.getLast? = some '\r' := by
    rw [List.getLast?_map]
    cases line.getLast? with
    | none => simp
    | some c => simp [toLower_eq_carriageReturn_iff]
  simp only [dropCarriageReturn, hlast]
  split
  next => rw [List.map_dropLast]
  next => rfl

theorem linesOfPieces_cons_cons (piece next : List Char) (rest : List (List Char)) :
    linesOfPieces (piece :: next :: rest)
      = dropCarriageReturn piece :: linesOfPieces (next :: rest) := rfl

theorem linesOfPieces_map_toLower (pieces : List (List Char)) :
    linesOfPieces (pieces.map (List.map Char.toLower))
      = (linesOfPieces pieces).map (List.map Char.toLower) := by
  induction pieces with
  | nil => rfl
  | cons piece more ih =>
    cases more with
    | nil => cases piece <;> rfl
    | cons next rest =>
      rw [List.map_cons, List.map_cons, linesOfPieces_cons_cons, ← List.map_cons, ih,
        dropCarriageReturn_map_toLower, linesOfPieces_cons_cons, List.map_cons]

theorem lines_map_toLower (text : List Char) :
    lines (text.map Char.toLower) = (lines text).map (List.map Char.toLower) := by
  rw [lines, lines, splitOn_newline_map_toLower, linesOfPieces_map_toLower]

/-- Whether two texts differ in the case of ASCII letters only. -/
def SameLetters (text other : List Char) : Prop :=
  text.map Char.toLower = other.map Char.toLower

namespace SameLetters

variable {text other : List Char}

theorem lower_eq (h : SameLetters text other) : lower text = lower other := by
  rw [← lower_map_toLower text, ← lower_map_toLower other, h]

end SameLetters
end SdkEvidence.Text
