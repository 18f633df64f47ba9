/-!
# Tables of characters

Properties and mappings of characters that are no short formula are tables of code points in
increasing order.
-/
namespace SdkEvidence.Text

/-! ## Intervals

A property of characters that is not a short formula is a table of closed intervals in
increasing order. Membership stops at the first interval that starts beyond the character.
-/

/-- Both ends of a closed interval of code points. -/
abbrev Interval := Nat × Nat

/-- Whether the code point lies in one of the intervals, which stand in increasing order. -/
def inIntervals (n : Nat) : List Interval → Bool
  | [] => false
  | (first, last) :: rest =>
      if n < first then false else if n ≤ last then true else inIntervals n rest

/-- Being in a table does not depend on where the search stops: some interval holds the point. -/
theorem exists_of_inIntervals {n : Nat} {table : List Interval} (h : inIntervals n table = true) :
    ∃ i ∈ table, i.1 ≤ n ∧ n ≤ i.2 := by
  induction table with
  | nil => simp [inIntervals] at h
  | cons i rest ih =>
    obtain ⟨first, last⟩ := i
    simp only [inIntervals] at h
    split at h
    · contradiction
    · split at h
      · exact ⟨(first, last), by simp, by omega, by omega⟩
      · obtain ⟨j, hj, hn⟩ := ih h
        exact ⟨j, by simp [hj], hn⟩

/-! ## Case mappings

A mapping between the cases of characters is a table of arithmetic progressions, each with the
distance that its members move. Rows stand in increasing order and do not interleave.
-/

/-- First and last code point, the step between members, and the distance to their images. -/
abbrev CaseRow := Nat × Nat × Nat × Int

/-- The image of a code point under a table; a point in no row is its own image. -/
def mapCase (n : Nat) : List CaseRow → Nat
  | [] => n
  | (first, last, step, distance) :: rest =>
      if n < first then n
      else if n ≤ last && (n - first) % step == 0 then (n + distance).toNat
      else mapCase n rest

end SdkEvidence.Text
