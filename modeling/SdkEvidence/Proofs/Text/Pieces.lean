import Mathlib.Data.List.Infix

/-!
# Texts cut at marks

A text that is cut at every mark falls into pieces of itself (`infix_of_mem_splitOnP`) that have no
mark (`false_of_mem_splitOnP`), and whatever of the text has no mark in it lies within one of them
(`exists_mem_splitOnP_infix`). Marks are told by a test or are a single character.
-/
namespace SdkEvidence.Text

section Marks

variable {α : Type} {p : α → Bool} {text piece part : List α}

theorem false_of_mem_splitOnP (h : piece ∈ text.splitOnP p) : ∀ c ∈ piece, p c = false := by
  induction text generalizing piece with
  | nil => simp_all
  | cons c rest ih =>
    rw [List.splitOnP_cons_eq_if_modifyHead] at h
    obtain ⟨head, tail, hsplit⟩ := List.exists_cons_of_ne_nil (List.splitOnP_ne_nil p rest)
    rw [hsplit] at h ih
    split at h
    next =>
      rcases List.mem_cons.mp h with rfl | h
      · simp
      · exact ih h
    next hc =>
      rcases List.mem_cons.mp h with rfl | h
      · exact List.forall_mem_cons.mpr ⟨by simpa using hc, ih List.mem_cons_self⟩
      · exact ih (List.mem_cons_of_mem _ h)

/-- A part without a mark at the start of a text lies at the start of the first piece. -/
theorem exists_splitOnP_of_prefix (h : part <+: text) (hpart : ∀ c ∈ part, p c = false) :
    ∃ head tail, text.splitOnP p = head :: tail ∧ part <+: head := by
  induction part generalizing text with
  | nil =>
    obtain ⟨head, tail, hsplit⟩ := List.exists_cons_of_ne_nil (List.splitOnP_ne_nil p text)
    exact ⟨head, tail, hsplit, List.nil_prefix⟩
  | cons c part ih =>
    obtain ⟨rest, rfl⟩ := h
    obtain ⟨hc, hpart⟩ := List.forall_mem_cons.mp hpart
    obtain ⟨head, tail, hsplit, hhead⟩ := ih (List.prefix_append part rest) hpart
    refine ⟨c :: head, tail, ?_, (List.cons_prefix_cons.mpr ⟨rfl, hhead⟩)⟩
    rw [List.cons_append, List.splitOnP_cons_eq_if_modifyHead, hsplit]
    simp [hc]

theorem exists_mem_splitOnP_infix (h : part <:+: text) (hpart : ∀ c ∈ part, p c = false) :
    ∃ piece ∈ text.splitOnP p, part <:+: piece := by
  induction text with
  | nil =>
    rw [List.infix_nil.mp h]
    exact ⟨[], by simp, List.infix_refl _⟩
  | cons c rest ih =>
    rcases List.infix_cons_iff.mp h with hprefix | hinfix
    · obtain ⟨head, tail, hsplit, hhead⟩ := exists_splitOnP_of_prefix hprefix hpart
      exact ⟨head, by simp [hsplit], hhead.isInfix⟩
    · obtain ⟨piece, hpiece, hin⟩ := ih hinfix
      rw [List.splitOnP_cons_eq_if_modifyHead]
      split
      next => exact ⟨piece, List.mem_cons_of_mem _ hpiece, hin⟩
      next =>
        obtain ⟨head, tail, hsplit⟩ := List.exists_cons_of_ne_nil (List.splitOnP_ne_nil p rest)
        rw [hsplit] at hpiece ⊢
        rcases List.mem_cons.mp hpiece with rfl | hpiece
        · exact ⟨c :: piece, List.mem_cons_self, List.infix_cons_iff.mpr (Or.inr hin)⟩
        · exact ⟨piece, List.mem_cons_of_mem _ hpiece, hin⟩

/-- The first piece starts the text, and the others lie within it. -/
theorem infix_of_mem_splitOnP (h : piece ∈ text.splitOnP p) : piece <:+: text := by
  suffices hpieces : (∀ head ∈ (text.splitOnP p).head?, head <+: text) ∧
      ∀ piece ∈ text.splitOnP p, piece <:+: text from hpieces.2 piece h
  clear h
  induction text with
  | nil => simp
  | cons c rest ih =>
    obtain ⟨head, tail, hsplit⟩ := List.exists_cons_of_ne_nil (List.splitOnP_ne_nil p rest)
    rw [hsplit] at ih
    obtain ⟨hhead, hpieces⟩ := ih
    have hbehind : ∀ piece ∈ head :: tail, piece <:+: c :: rest := fun piece hpiece =>
      List.infix_cons_iff.mpr (Or.inr (hpieces piece hpiece))
    rw [List.splitOnP_cons_eq_if_modifyHead, hsplit]
    split
    next => exact ⟨by simp, List.forall_mem_cons.mpr ⟨List.nil_infix, hbehind⟩⟩
    next =>
      have hfirst : c :: head <+: c :: rest :=
        List.cons_prefix_cons.mpr ⟨rfl, hhead head (by simp)⟩
      exact ⟨by simpa using hfirst, List.forall_mem_cons.mpr
        ⟨hfirst.isInfix, (List.forall_mem_cons.mp hbehind).2⟩⟩

end Marks

variable {mark : Char} {text piece part : List Char}

theorem splitOn_of_notMem (h : mark ∉ text) : text.splitOn mark = [text] := by
  rw [List.splitOn_eq_splitOnP]
  refine List.splitOnP_eq_singleton fun c hc => ?_
  simpa using ne_of_mem_of_not_mem hc h

/-- The first piece starts the text. -/
theorem prefix_of_splitOn {pieces : List (List Char)} (h : text.splitOn mark = piece :: pieces) :
    piece <+: text := by
  by_cases hmark : mark ∈ text
  · obtain ⟨front, back, rfl, hfront⟩ := List.eq_append_cons_of_mem hmark
    rw [List.splitOn_append_cons_self, splitOn_of_notMem hfront] at h
    rw [← (List.cons.inj h).1]
    exact List.prefix_append _ _
  · rw [splitOn_of_notMem hmark] at h
    rw [(List.cons.inj h).1]

theorem notMem_of_mem_splitOn (h : piece ∈ text.splitOn mark) : mark ∉ piece := by
  rw [List.splitOn_eq_splitOnP] at h
  intro hmark
  simpa using false_of_mem_splitOnP h mark hmark

theorem infix_of_mem_splitOn (h : piece ∈ text.splitOn mark) : piece <:+: text := by
  rw [List.splitOn_eq_splitOnP] at h
  exact infix_of_mem_splitOnP h

theorem exists_mem_splitOn_infix (h : part <:+: text) (hpart : mark ∉ part) :
    ∃ piece ∈ text.splitOn mark, part <:+: piece := by
  rw [List.splitOn_eq_splitOnP]
  refine exists_mem_splitOnP_infix h fun c hc => ?_
  simpa using ne_of_mem_of_not_mem hc hpart

end SdkEvidence.Text
