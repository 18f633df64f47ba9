import Mathlib.Data.List.Infix
import SdkEvidence.Proofs.FileSystem.Following
import SdkEvidence.Zip.EntryName

/-!
# Names that leave their directory

A name is passed over exactly when it escapes (`isEnclosed_iff`). The steps of a name that does not
escape stay below every directory they start in (`prefix_of_mem_trail`).
-/
namespace SdkEvidence

namespace Path

/-- How deep steps lead, from a depth on; none when they climb above the start. -/
def depthAfter : Nat → List String → Option Nat
  | depth, [] => some depth
  | depth, step :: rest =>
      if step = ".." then
        match depth with
        | 0 => none
        | depth + 1 => depthAfter depth rest
      else depthAfter (depth + 1) rest

/-- Depth counts names and steps up: it exists when no beginning of the way has more steps up than
names. -/
theorem depthAfter_isSome {depth : Nat} {steps : List String} :
    (depthAfter depth steps).isSome = true
      ↔ ∀ way, way <+: steps → way.count ".." ≤ depth + way.countP (· ≠ "..") := by
  induction steps generalizing depth with
  | nil => simp [depthAfter]
  | cons step rest ih =>
    -- a beginning of the way is empty, or starts with the first step
    have hcons {P : List String → Prop} :
        (∀ way, way <+: step :: rest → P way) ↔ P [] ∧ ∀ way, way <+: rest → P (step :: way) := by
      constructor
      · intro h
        exact ⟨h [] List.nil_prefix, fun way hway => h _ ((List.prefix_cons_inj step).mpr hway)⟩
      · rintro ⟨hnil, hrest⟩ way hway
        rcases List.prefix_cons_iff.mp hway with rfl | ⟨more, rfl, hmore⟩
        · exact hnil
        · exact hrest more hmore
    rw [hcons]
    unfold depthAfter
    by_cases hup : step = ".."
    · cases depth with
      | zero =>
        simp only [hup, if_true, Option.isSome_none, Bool.false_eq_true, false_iff, not_and]
        intro _ hrest
        have hstep := hrest [] List.nil_prefix
        simp at hstep
      | succ depth =>
        simp only [hup, if_true, ih, List.count_nil, Nat.zero_le, true_and]
        refine forall_congr' fun way => forall_congr' fun _ => ?_
        rw [List.count_cons_self, List.countP_cons_of_neg (by simp)]
        omega
    · simp only [hup, if_false, ih, List.count_nil, Nat.zero_le, true_and]
      refine forall_congr' fun way => forall_congr' fun _ => ?_
      rw [List.count_cons_of_ne hup, List.countP_cons_of_pos (by simpa using hup)]
      omega

theorem depthAfter_of_prefix {start : Nat} {front steps : List String} (hfront : front <+: steps)
    (h : ∃ depth, depthAfter start steps = some depth) :
    ∃ depth, depthAfter start front = some depth := by
  rw [← Option.isSome_iff_exists, depthAfter_isSome] at h ⊢
  exact fun way hway => h way (hway.trans hfront)

theorem prefix_of_depthAfter (top place : Location) {steps : List String} {depth : Nat}
    (h : depthAfter place.length steps = some depth) :
    ∀ loc ∈ Location.trail (top ++ place) steps, top <+: loc := by
  induction steps generalizing place with
  | nil => simp [Location.trail]
  | cons step rest ih =>
    intro loc hloc
    rw [Location.trail, List.mem_cons] at hloc
    rcases hloc with rfl | hloc
    · exact List.prefix_append top place
    unfold depthAfter at h
    split at h
    next hup =>
      split at h
      next => cases h
      next above hlength =>
        rcases List.eq_nil_or_concat place with rfl | ⟨front, last, rfl⟩
        · cases hlength
        · rw [List.concat_eq_append] at hlength hloc
          have hfront : front.length = above := by simpa using hlength
          apply ih front (hfront ▸ h)
          simpa [Location.step, hup, ← List.append_assoc] using hloc
    next hup =>
      apply ih (place ++ [step]) (by simpa using h)
      simpa [Location.step, hup] using hloc

/-- Steps that stay below their start lead to the same way from every start. -/
theorem reach_of_depthAfter (top place : Location) {steps : List String} {depth : Nat}
    (h : depthAfter place.length steps = some depth) :
    Location.reach (top ++ place) steps = top ++ Location.reach place steps := by
  induction steps generalizing place with
  | nil => rfl
  | cons step rest ih =>
    rw [Location.reach_cons, Location.reach_cons]
    unfold depthAfter at h
    split at h
    next hup =>
      split at h
      next => cases h
      next above hlength =>
        rcases List.eq_nil_or_concat place with rfl | ⟨front, last, rfl⟩
        · cases hlength
        · rw [List.concat_eq_append] at hlength ⊢
          have hfront : front.length = above := by simpa using hlength
          simpa [Location.step, hup, ← List.append_assoc] using ih front (hfront ▸ h)
    next hup =>
      simpa [Location.step, hup] using ih (place ++ [step]) (by simpa using h)

end Path

namespace Zip

/-- A name escapes from the directory that it is extracted into: it holds a NUL, is absolute, or at
some point has taken more steps up than down. -/
def Escapes (name : String) : Prop :=
  '\x00' ∈ name.toList ∨ Path.isAbsolute name = true ∨
    ∃ way ∈ (Path.steps name).inits, way.countP (· ≠ "..") < way.count ".."

instance (name : String) : Decidable (Escapes name) := by
  unfold Escapes
  infer_instance

theorem depthBelow_filterMap (depth : Nat) (segments : List String) :
    depthBelow depth (segments.filterMap Path.component?)
      = Path.depthAfter depth (Path.moves segments) := by
  induction segments generalizing depth with
  | nil => rfl
  | cons segment rest ih =>
    by_cases hempty : segment = ""
    · rw [Path.moves_cons_filler (by simp [hempty, Path.isFiller])]
      simpa [Path.component?, hempty] using ih depth
    by_cases hdot : segment = "."
    · rw [Path.moves_cons_filler (by simp [hdot, Path.isFiller])]
      simpa [Path.component?, hdot] using ih depth
    rw [Path.moves_cons (by simp [hempty, hdot, Path.isFiller])]
    by_cases hup : segment = ".."
    · cases depth <;> simp [Path.component?, hup, depthBelow, Path.depthAfter, ih]
    · simp [Path.component?, hempty, hdot, hup, depthBelow, Path.depthAfter, ih]

theorem depthBelow_components {name : String} (hrel : Path.isAbsolute name = false) :
    depthBelow 0 (Path.components name) = Path.depthAfter 0 (Path.steps name) := by
  rw [← Path.moves_body, ← depthBelow_filterMap]
  simp only [Path.components, hrel, Bool.false_eq_true, if_false]
  cases hbody : Path.body name with
  | nil => exact absurd hbody (Path.body_ne_nil name)
  | cons first rest =>
    by_cases hdot : first = "."
    · simp [Path.relativeComponents, hdot, depthBelow, Path.component?]
    · cases hcomponent : Path.component? first <;>
        simp [Path.relativeComponents, hdot, hcomponent]

theorem isEnclosed_iff (name : String) : isEnclosed name = true ↔ ¬Escapes name := by
  have hnul : (!name.toList.contains '\x00') = true ↔ '\x00' ∉ name.toList := by simp
  rw [isEnclosed, Bool.and_eq_true, hnul, Escapes, not_or, not_or]
  cases habs : Path.isAbsolute name with
  | true => simp [Path.components, habs, depthBelow]
  | false =>
    rw [depthBelow_components habs, Path.depthAfter_isSome]
    simp [List.mem_inits]

theorem depthAfter_of_enclosed {name : String} (h : isEnclosed name = true) :
    Path.isAbsolute name = false ∧ ∃ depth, Path.depthAfter 0 (Path.steps name) = some depth := by
  rw [isEnclosed, Bool.and_eq_true] at h
  cases habs : Path.isAbsolute name with
  | true => simp [Path.components, habs, depthBelow] at h
  | false =>
    rw [depthBelow_components habs] at h
    exact ⟨rfl, Option.isSome_iff_exists.mp h.2⟩

/-- All that an enclosed name passes through stands at or below its start. -/
theorem prefix_of_mem_trail {name : String} (h : isEnclosed name = true) (top : Location) :
    ∀ loc ∈ Location.trail top (Path.steps name), top <+: loc := by
  obtain ⟨-, depth, hdepth⟩ := depthAfter_of_enclosed h
  simpa using Path.prefix_of_depthAfter top [] hdepth

/-- An enclosed name leads to the same way below every directory. -/
theorem reach_of_enclosed {name : String} (h : isEnclosed name = true) (top : Location) :
    Location.reach top (Path.steps name) = top ++ Location.reach [] (Path.steps name) := by
  obtain ⟨-, depth, hdepth⟩ := depthAfter_of_enclosed h
  simpa using Path.reach_of_depthAfter top [] hdepth

end Zip
end SdkEvidence
