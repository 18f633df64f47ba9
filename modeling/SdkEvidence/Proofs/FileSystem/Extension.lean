import Mathlib.Data.List.TakeWhile
import SdkEvidence.FileSystem.Path

/-!
# Names with an extension

A name has an extension if a dot stands behind something else. The extension is what follows the
last dot (`splitName_eq_some_iff`), and the name is told by both parts.
-/
namespace SdkEvidence.Path

/-- A text that has a character is cut at the last one. -/
theorem exists_last_dot {chars : List Char} (h : '.' ∈ chars) :
    ∃ front back, chars = front ++ '.' :: back ∧ '.' ∉ back := by
  obtain ⟨back, front, hreverse, hback⟩ := List.eq_append_cons_of_mem (List.mem_reverse.mpr h)
  refine ⟨front.reverse, back.reverse, ?_, by simpa using hback⟩
  rw [← List.reverse_reverse chars, hreverse]
  simp

theorem splitName_of_no_dot {name : String} (h : '.' ∉ name.toList) :
    splitName name = (name, none) := by
  have htail : name.toList.reverse.takeWhile (· != '.') = name.toList.reverse := by
    rw [List.takeWhile_eq_self_iff]
    intro c hc
    rw [bne_iff_ne]
    exact ne_of_mem_of_not_mem (List.mem_reverse.mp hc) h
  simp [splitName, htail]

/-- A name with a dot is split at the last one, unless nothing stands before it. -/
theorem splitName_of_dot {name : String} {front back : List Char}
    (hname : name.toList = front ++ '.' :: back) (hback : '.' ∉ back) (hup : name ≠ "..") :
    splitName name
      = if front.isEmpty then (name, none)
        else (String.ofList front, some (String.ofList back)) := by
  have hreverse : name.toList.reverse = back.reverse ++ '.' :: front.reverse := by simp [hname]
  have htail : name.toList.reverse.takeWhile (· != '.') = back.reverse := by
    rw [hreverse, List.takeWhile_append_of_pos]
    · simp
    · intro c hc
      rw [bne_iff_ne]
      exact ne_of_mem_of_not_mem (List.mem_reverse.mp hc) hback
  have hstem : (name.toList.reverse.drop (back.reverse.length + 1)).reverse = front := by
    rw [hreverse, List.drop_append]
    simp
  have hlength : back.reverse.length ≠ name.toList.length := by
    simp only [hname, List.length_reverse, List.length_append, List.length_cons]
    omega
  simp only [splitName, if_neg hup, htail, hstem, hlength, false_or, List.reverse_reverse]

/-- A name has an extension if it is a stem, which is not empty, with the extension behind the last
dot. -/
theorem splitName_eq_some_iff {name stem extension : String} (hup : name ≠ "..") :
    splitName name = (stem, some extension)
      ↔ stem ≠ "" ∧ '.' ∉ extension.toList ∧ name = stem ++ "." ++ extension := by
  constructor
  · intro h
    by_cases hdot : '.' ∈ name.toList
    · obtain ⟨front, back, hname, hback⟩ := exists_last_dot hdot
      rw [splitName_of_dot hname hback hup] at h
      split at h
      next => cases h
      next hfront =>
        cases h
        refine ⟨by simpa using hfront, by simpa using hback, String.toList_injective ?_⟩
        simp [hname]
    · rw [splitName_of_no_dot hdot] at h
      cases h
  · rintro ⟨hstem, hdot, rfl⟩
    have hname : (stem ++ "." ++ extension).toList = stem.toList ++ '.' :: extension.toList := by
      simp
    rw [splitName_of_dot hname hdot hup, if_neg (by simpa using hstem)]
    simp

end SdkEvidence.Path
