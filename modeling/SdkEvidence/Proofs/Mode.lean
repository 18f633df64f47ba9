import Mathlib.Data.List.Induction
import Mathlib.Data.List.Nodup
import SdkEvidence.Mode
import SdkEvidence.Proofs.Text.Blank

/-!
# The keywords of a search

A search is made of keywords that are not blank. It has each of them trimmed and once, where it
first stood (`detect_ok`, `detect_blank`), and its own keywords make the same search again
(`detect_keywords`).
-/
namespace SdkEvidence

theorem nodup_eraseDups (texts : List String) : texts.eraseDups.Nodup := by
  induction texts using List.reverseRecOn with
  | nil => simp
  | append_singleton front last ih =>
    rw [List.eraseDups_append, List.cons_removeAll]
    by_cases hknown : last ∈ front
    · simpa [hknown] using ih
    · have hapart : ∀ text ∈ front, text ≠ last := fun text htext =>
        ne_of_mem_of_not_mem htext hknown
      simpa [hknown, List.nodup_append, ih, List.eraseDups_cons] using hapart

theorem eraseDups_of_nodup {texts : List String} (h : texts.Nodup) : texts.eraseDups = texts := by
  induction texts with
  | nil => rfl
  | cons first rest ih =>
    obtain ⟨hfirst, hrest⟩ := List.nodup_cons.mp h
    have hother : rest.filter (fun text => !text == first) = rest := by
      rw [List.filter_eq_self]
      intro text htext
      simpa using ne_of_mem_of_not_mem htext hfirst
    rw [List.eraseDups_cons, hother, ih hrest]

theorem eraseDups_append_of_mem {front back : List String} {text : String} (h : text ∈ front) :
    (front ++ text :: back).eraseDups = (front ++ back).eraseDups := by
  rw [List.eraseDups_append, List.eraseDups_append, List.cons_removeAll]
  simp [h]

namespace Mode

open Text

/-- The keywords taken so far are kept, and each new one is added where it first stands. -/
theorem takeKeywords_ok {taken keywords : List String} (htaken : taken.Nodup)
    (h : ∀ keyword ∈ keywords, trimmed keyword ≠ "") :
    takeKeywords taken keywords = .ok (taken ++ keywords.map trimmed).eraseDups := by
  induction keywords generalizing taken with
  | nil => simp [takeKeywords, eraseDups_of_nodup htaken]
  | cons keyword rest ih =>
    obtain ⟨hkeyword, hrest⟩ := List.forall_mem_cons.mp h
    rw [takeKeywords, List.map_cons]
    simp only [hkeyword, if_false]
    split
    next hknown =>
      rw [ih htaken hrest, eraseDups_append_of_mem (List.contains_iff_mem.mp hknown)]
    next hnew =>
      have hapart : trimmed keyword ∉ taken := by simpa using hnew
      have hnodup : (taken ++ [trimmed keyword]).Nodup := by
        rw [← List.concat_eq_append]
        exact htaken.concat hapart
      rw [ih hnodup hrest, List.append_assoc, List.singleton_append]

theorem takeKeywords_blank (taken : List String) {keywords : List String}
    (h : ∃ keyword ∈ keywords, trimmed keyword = "") :
    takeKeywords taken keywords = .error (.invalidInput "keyword must not be empty") := by
  induction keywords generalizing taken with
  | nil => simp at h
  | cons keyword rest ih =>
    rw [takeKeywords]
    by_cases hkeyword : trimmed keyword = ""
    · simp only [hkeyword, if_true]
    · have hrest : ∃ keyword ∈ rest, trimmed keyword = "" := by simpa [hkeyword] using h
      simp only [hkeyword, if_false]
      split <;> exact ih _ hrest

theorem detect_ok {keywords : List String} (hsome : keywords ≠ [])
    (h : ∀ keyword ∈ keywords, trimmed keyword ≠ "") :
    detect keywords = .ok (.detection (keywords.map trimmed).eraseDups) := by
  obtain ⟨first, rest, rfl⟩ := List.exists_cons_of_ne_nil hsome
  rw [detect, takeKeywords_ok List.nodup_nil h, List.nil_append, List.map_cons,
    List.eraseDups_cons]

theorem detect_blank {keywords : List String}
    (h : ∃ keyword ∈ keywords, trimmed keyword = "") :
    detect keywords = .error (.invalidInput "keyword must not be empty") := by
  rw [detect, takeKeywords_blank [] h]

/-- There is a search exactly for keywords that are not blank, of which there is at least one. -/
theorem detect_isOk_iff {keywords : List String} :
    (∃ mode, detect keywords = .ok mode)
      ↔ keywords ≠ [] ∧ ∀ keyword ∈ keywords, trimmed keyword ≠ "" := by
  constructor
  · rintro ⟨mode, hmode⟩
    refine ⟨?_, fun keyword hmem hblank => ?_⟩
    · rintro rfl
      cases hmode
    · rw [detect_blank ⟨keyword, hmem, hblank⟩] at hmode
      cases hmode
  · rintro ⟨hsome, h⟩
    exact ⟨_, detect_ok hsome h⟩

theorem eq_of_detect {keywords : List String} {mode : Mode} (h : detect keywords = .ok mode) :
    mode = .detection (keywords.map trimmed).eraseDups := by
  obtain ⟨hsome, hkeywords⟩ := detect_isOk_iff.mp ⟨mode, h⟩
  rw [detect_ok hsome hkeywords] at h
  exact (Except.ok.inj h).symm

theorem nodup_keywords {keywords : List String} {mode : Mode} (h : detect keywords = .ok mode) :
    mode.keywords.Nodup := by
  rw [eq_of_detect h]
  exact nodup_eraseDups _

/-- The keywords of a search are trimmed and not blank. -/
theorem of_mem_keywords {keywords : List String} {mode : Mode} (h : detect keywords = .ok mode)
    {keyword : String} (hmem : keyword ∈ mode.keywords) :
    trimmed keyword = keyword ∧ keyword ≠ "" := by
  have hkeywords := (detect_isOk_iff.mp ⟨mode, h⟩).2
  rw [eq_of_detect h] at hmem
  obtain ⟨given, hgiven, rfl⟩ := List.mem_map.mp (List.mem_eraseDups.mp hmem)
  exact ⟨trimmed_trimmed given, hkeywords given hgiven⟩

/-- Trimmed keywords that are not blank, each once, make the search for just them. -/
theorem detect_of_trimmed {keywords : List String} (hsome : keywords ≠ [])
    (hnodup : keywords.Nodup)
    (h : ∀ keyword ∈ keywords, trimmed keyword = keyword ∧ keyword ≠ "") :
    detect keywords = .ok (.detection keywords) := by
  have hmap : keywords.map trimmed = keywords :=
    (List.map_congr_left fun keyword hmem => (h keyword hmem).1).trans (List.map_id' keywords)
  rw [detect_ok hsome fun keyword hmem => (h keyword hmem).1.symm ▸ (h keyword hmem).2, hmap,
    eraseDups_of_nodup hnodup]

theorem detect_keywords {keywords : List String} {mode : Mode} (h : detect keywords = .ok mode) :
    detect mode.keywords = .ok mode := by
  have hmode := eq_of_detect h
  have hsome : mode.keywords ≠ [] := by
    obtain ⟨first, rest, rfl⟩ :=
      List.exists_cons_of_ne_nil (detect_isOk_iff.mp ⟨mode, h⟩).1
    rw [hmode, Mode.keywords, List.map_cons, List.eraseDups_cons]
    exact List.cons_ne_nil _ _
  rw [detect_of_trimmed hsome (nodup_keywords h) fun keyword hmem => of_mem_keywords h hmem, hmode]
  rfl

end Mode
end SdkEvidence
