import SdkEvidence.Package.Merge
import SdkEvidence.Proofs.Action
import SdkEvidence.Proofs.FileSystem.Files
import SdkEvidence.Proofs.FileSystem.Temporary

/-!
# Publishing a package

A package that is published stands at the output, and nothing else has changed but for new
directories on the way there (`publish_ok`). When publishing fails only such directories are new
(`publish_error`). The staged file is never left.
-/
namespace SdkEvidence

open FileSystem

namespace Merge

variable {fs after : FileSystem} {assembled output : PathText}

/-- A staged file that is moved holds the package that was assembled. -/
theorem moveStaged_ok {staged : Location} {u : Unit}
    (h : (moveStaged assembled output staged).runIn fs = (.ok u, after)) :
    ∃ package, fs.readFile assembled = .ok package ∧
      (fs.put staged (.file package false)).moveFile staged output = .ok after := by
  unfold moveStaged at h
  obtain ⟨package, read, hread, hrest⟩ := Action.runIn_bind_ok.mp h
  rw [Action.runIn_step_ok, Prod.mk.injEq] at hread
  obtain ⟨rfl, hread⟩ := hread
  obtain ⟨⟨⟩, filled, hfill, hmove⟩ := Action.runIn_bind_ok.mp hrest
  rw [Action.runIn_change_ok] at hfill hmove
  cases hfill
  exact ⟨package, hread, hmove⟩

/-- A staged file that is not moved is the only one that may have changed. -/
theorem moveStaged_error {staged : Location} {content : ByteArray} {executable : Bool} {e : Failure}
    (hfile : fs.get? staged = some (.file content executable))
    (h : (moveStaged assembled output staged).runIn fs = (.error e, after)) :
    (∃ reason, e = publishingFailure output reason) ∧ Within staged fs after := by
  unfold moveStaged at h
  rcases Action.runIn_bind_error.mp h with h | ⟨package, read, hread, h⟩
  · obtain ⟨reason, hrun, rfl⟩ := Action.runIn_step_error.mp h
    rw [Prod.mk.injEq] at hrun
    obtain ⟨rfl, -⟩ := hrun
    exact ⟨⟨reason, rfl⟩, .refl _ _⟩
  rw [Action.runIn_step_ok, Prod.mk.injEq] at hread
  obtain ⟨rfl, -⟩ := hread
  rcases Action.runIn_bind_error.mp h with h | ⟨⟨⟩, filled, hfill, h⟩
  · obtain ⟨reason, hrun, -⟩ := Action.runIn_change_error.mp h
    cases hrun
  · rw [Action.runIn_change_ok] at hfill
    cases hfill
    obtain ⟨reason, -, rfl, rfl⟩ := Action.runIn_change_error.mp h
    exact ⟨⟨reason, rfl⟩, .put fs (List.prefix_refl _) _ (by simp [hfile])
      fun wf => wf.replace hfile _⟩

/-- Publishing that fails leaves new directories on the way to the output and nothing else. -/
theorem publish_error (wf : fs.WellFormed) {e : Failure}
    (h : (publish assembled output).runIn fs = (.error e, after)) :
    (∃ reason, e = publishingFailure output reason) ∧
      Grown (fs.trail (outputDirectory output)) fs after := by
  unfold publish at h
  rcases Action.runIn_bind_error.mp h with h | ⟨⟨⟩, mid, hmade, h⟩
  · obtain ⟨reason, hrun, rfl⟩ := Action.runIn_step_error.mp h
    exact ⟨⟨reason, rfl⟩, createDirectories_grown hrun⟩
  have hgrown := createDirectories_grown (Action.runIn_step_ok.mp hmade)
  rw [Action.runIn_withStaged] at h
  split at h
  next reason _ =>
    cases h
    exact ⟨⟨reason, rfl⟩, hgrown⟩
  next made staged htemporary =>
    split at h
    next => cases h
    next e last hmoved =>
      cases h
      have hplace := makeTemporary_ok (by decide) htemporary
      have wf' := hgrown.wellFormed wf
      obtain ⟨hreason, hlast⟩ := moveStaged_error hplace.get?_self hmoved
      refine ⟨hreason, hlast.current.trans (hplace.current.trans hgrown.current), fun loc => ?_,
        fun _ => (hlast.wellFormed (hplace.wellFormed wf')).removeTree _⟩
      rw [GrownAt, hplace.get?_removed wf' hlast.outside]
      exact hgrown.node loc

/-- A package that is published stands at the output, and nothing else has changed but for new
directories on the way there. -/
theorem publish_ok (wf : fs.WellFormed) {package : ByteArray} {u : Unit}
    (hpackage : fs.readFile assembled = .ok package)
    (h : (publish assembled output).runIn fs = (.ok u, after)) :
    after.current = fs.current ∧ after.WellFormed ∧ after.readFile output = .ok package ∧
      fs.get? (fs.locate output) ≠ some .directory ∧
      ∀ loc, loc ≠ fs.locate output → GrownAt (fs.trail (outputDirectory output)) fs after loc := by
  unfold publish at h
  obtain ⟨⟨⟩, mid, hmade, h⟩ := Action.runIn_bind_ok.mp h
  have hgrown := createDirectories_grown (Action.runIn_step_ok.mp hmade)
  rw [Action.runIn_withStaged] at h
  split at h
  next => cases h
  next made staged htemporary =>
    split at h
    next u last hmoved =>
      cases h
      have hplace := makeTemporary_ok (by decide) htemporary
      obtain ⟨content, hread, hmove⟩ := moveStaged_ok hmoved
      -- making room for the output keeps the package, so it is what is staged and moved
      have hsame := readFile_of_keeps (hplace.current.trans hgrown.current)
        (fun _ _ hget => hplace.keeps (hgrown.keeps hget)) hpackage
      rw [hread] at hsame
      cases hsame
      have wf' := (hplace.wellFormed (hgrown.wellFormed wf)).replace hplace.get?_self
        (.file package false)
      have hfilled := get?_put_self staged hplace.location_ne_nil (.file package false)
      obtain ⟨hlast, hresult, hlastWf⟩ := moveFile_ok wf' hfilled hmove
      obtain ⟨-, hnot, -⟩ := moveFile_target wf' hfilled hmove
      have hcurrent : staged.current = fs.current := hplace.current.trans hgrown.current
      rw [locate_congr ((put_current staged _ _).trans hcurrent)] at hnot
      refine ⟨by simp [hlast, hcurrent], hlastWf, hresult, fun hdir => hnot ?_, fun loc hloc => ?_⟩
      · have hstaged := hplace.keeps (hgrown.keeps hdir)
        rw [get?_put_of_ne, hstaged]
        intro heq
        rw [heq, hplace.get?_self] at hstaged
        cases hstaged
      rw [← locate_congr hcurrent, ← locate_congr (put_current staged _ _)] at hloc
      rw [GrownAt, hlast, get?_put_of_ne _ hloc, hplace.get?_removed (hgrown.wellFormed wf)]
      · exact hgrown.node loc
      · intro l hl
        refine get?_put_of_ne staged ?_ _
        rintro rfl
        exact hl (List.prefix_refl _)
    next => cases h

end Merge
end SdkEvidence
