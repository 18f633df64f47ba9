import Mathlib.Data.List.DropRight
import Mathlib.Data.List.Induction
import SdkEvidence.Proofs.Text.Pieces
import SdkEvidence.Text.Blank

/-!
# Trimming

Blanks around a text do not matter once it is trimmed (`trim_blanks_append`, `trim_append_blanks`),
and a trimmed text has none to lose (`trim_trim`). A text has words unless it is blank
(`words_eq_nil_iff`), and no blank is part of one (`isBlank_of_mem_words`).
-/
namespace SdkEvidence.Text

theorem trimEnd_eq_rdropWhile (text : List Char) : trimEnd text = text.rdropWhile isBlank := rfl

/-- A text without blanks at its start has none there once its end is trimmed. -/
theorem trimStart_trimEnd {text : List Char} (h : trimStart text = text) :
    trimStart (trimEnd text) = trimEnd text := by
  rw [trimEnd_eq_rdropWhile]
  cases hkept : text.rdropWhile isBlank with
  | nil => rfl
  | cons c rest =>
    obtain ⟨more, htext⟩ := hkept ▸ List.rdropWhile_prefix (p := isBlank) (l := text)
    rw [← htext, List.cons_append] at h
    have hc : isBlank c = false := by
      by_contra hblank
      have hlength := congrArg List.length h
      have hle := List.length_dropWhile_le isBlank (rest ++ more)
      simp only [trimStart, List.dropWhile_cons_of_pos (by simpa using hblank),
        List.length_cons] at hlength
      omega
    exact List.dropWhile_cons_of_neg (by simp [hc])

theorem trim_trim (text : List Char) : trim (trim text) = trim text := by
  have hstart : trimStart (trimStart text) = trimStart text := List.dropWhile_idempotent _ _
  have hend (text : List Char) : trimEnd (trimEnd text) = trimEnd text :=
    List.rdropWhile_idempotent _ _
  rw [trim, trim, trimStart_trimEnd hstart, hend]

theorem trimmed_trimmed (text : String) : trimmed (trimmed text) = trimmed text := by
  simp [trimmed, trim_trim]

theorem trim_eq_self {text : List Char} (h : ∀ c ∈ text, isBlank c = false) :
    trim text = text := by
  have hstart : trimStart text = text := by
    rw [trimStart, List.dropWhile_eq_self_iff]
    exact fun hl => by simp [h _ (List.getElem_mem hl)]
  rw [trim, hstart, trimEnd_eq_rdropWhile, List.rdropWhile_eq_self_iff]
  exact fun hne => by simp [h _ (List.getLast_mem hne)]

/-! ## Blanks around a text -/

variable {blanks : List Char}

theorem trim_blanks_append (h : ∀ c ∈ blanks, isBlank c = true) (text : List Char) :
    trim (blanks ++ text) = trim text := by
  rw [trim, trimStart, List.dropWhile_append_of_pos h]
  rfl

theorem trim_append_blanks (text : List Char) (h : ∀ c ∈ blanks, isBlank c = true) :
    trim (text ++ blanks) = trim text := by
  have hend (front : List Char) : trimEnd (front ++ blanks) = trimEnd front := by
    rw [trimEnd, trimEnd, List.reverse_append, List.dropWhile_append_of_pos (by simpa using h)]
  rw [trim, trim, trimStart, trimStart, List.dropWhile_append]
  split
  next hnone =>
    have hall : blanks.dropWhile isBlank = [] := List.dropWhile_eq_nil_iff.mpr h
    rw [hall, List.isEmpty_iff.mp hnone]
  next => exact hend _

/-- A text is its trimmed form with blanks around it. -/
theorem exists_blanks_trim (text : List Char) : ∃ before after,
    text = before ++ trim text ++ after ∧ (∀ c ∈ before, isBlank c = true) ∧
      ∀ c ∈ after, isBlank c = true := by
  refine ⟨text.takeWhile isBlank, (trimStart text).rtakeWhile isBlank, ?_,
    fun c hc => List.mem_takeWhile_imp hc, fun c hc => List.mem_rtakeWhile_imp hc⟩
  have hkept : trim text ++ (trimStart text).rtakeWhile isBlank = trimStart text :=
    List.rdropWhile_append_rtakeWhile
  rw [List.append_assoc, hkept]
  exact List.takeWhile_append_dropWhile.symm

theorem trim_eq_nil_iff (text : List Char) : trim text = [] ↔ ∀ c ∈ text, isBlank c = true := by
  constructor
  · intro hnone
    obtain ⟨before, after, htext, hbefore, hafter⟩ := exists_blanks_trim text
    rw [hnone, List.append_nil] at htext
    rw [htext]
    exact List.forall_mem_append.mpr ⟨hbefore, hafter⟩
  · intro hblank
    have htrim := trim_blanks_append hblank []
    rwa [List.append_nil] at htrim

theorem filter_trim (text : List Char) :
    (trim text).filter (fun c => !isBlank c) = text.filter fun c => !isBlank c := by
  obtain ⟨before, after, htext, hbefore, hafter⟩ := exists_blanks_trim text
  have hnone {blanks : List Char} (h : ∀ c ∈ blanks, isBlank c = true) :
      blanks.filter (fun c => !isBlank c) = [] := by
    simpa using h
  conv => rhs; rw [htext]
  simp [hnone hbefore, hnone hafter]

/-- Trimming takes off what is appended exactly if that is blank. -/
theorem trim_append_eq_iff {text tail : List Char} :
    trim (text ++ tail) = trim text ↔ ∀ c ∈ tail, isBlank c = true := by
  constructor
  · intro h
    have hfilter := congrArg (List.filter fun c => !isBlank c) h
    rw [filter_trim, filter_trim, List.filter_append, List.append_right_eq_self,
      List.filter_eq_nil_iff] at hfilter
    simpa using hfilter
  · exact trim_append_blanks text

/-! ## Words -/

theorem mem_words {text word : List Char} :
    word ∈ words text ↔ word ∈ text.splitOnP isBlank ∧ word ≠ [] := by
  simp [words]

theorem isBlank_of_mem_words {text word : List Char} (h : word ∈ words text) :
    ∀ c ∈ word, isBlank c = false :=
  false_of_mem_splitOnP (mem_words.mp h).1

theorem words_eq_nil_iff (text : List Char) :
    words text = [] ↔ ∀ c ∈ text, isBlank c = true := by
  rw [List.eq_nil_iff_forall_not_mem]
  constructor
  · intro hnone c hc
    by_contra hword
    have hpart : [c] <:+: text := by
      obtain ⟨before, after, rfl⟩ := List.append_of_mem hc
      exact ⟨before, after, by simp⟩
    obtain ⟨piece, hpiece, hin⟩ := exists_mem_splitOnP_infix hpart (p := isBlank)
      (by simpa using hword)
    refine hnone piece (mem_words.mpr ⟨hpiece, ?_⟩)
    rintro rfl
    simp at hin
  · intro hblank word hword
    obtain ⟨c, rest, rfl⟩ := List.exists_cons_of_ne_nil (mem_words.mp hword).2
    have hc : c ∈ text := (infix_of_mem_splitOnP (mem_words.mp hword).1).mem List.mem_cons_self
    have hword := isBlank_of_mem_words hword c List.mem_cons_self
    rw [hblank c hc] at hword
    cases hword

end SdkEvidence.Text
