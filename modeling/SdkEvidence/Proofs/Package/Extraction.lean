import SdkEvidence.Package.Extraction
import SdkEvidence.Proofs.FileSystem.Files
import SdkEvidence.Proofs.Zip.EntryName

/-!
# What one entry does

An entry that is written first adds the missing directories of its path and then puts one file
(`placeFile_ok`); an entry that cannot be written has only added directories (`placeFile_error`).
The file is reported as overwritten when the path led to a file with another digest before.
-/
namespace SdkEvidence.Extraction

open FileSystem

variable {fs after : FileSystem} {target : PathText} {content : ByteArray}

theorem makeRoom_grown {outcome : Except ExtractionError Unit}
    (h : makeRoom fs target = (after, outcome)) : Grown (fs.trail target) fs after := by
  unfold makeRoom at h
  split at h
  next =>
    cases h
    exact Grown.refl _ _
  next above habove =>
    split at h
    next mid hmade =>
      cases h
      exact (createDirectories_grown hmade).mono (trail_parent habove)
    next mid e hmade =>
      cases h
      exact (createDirectories_grown hmade).mono (trail_parent habove)

theorem placeFile_ok (h : placeFile fs target content = (after, .ok ())) :
    ∃ mid executable, Grown (fs.trail target) fs mid ∧
      after = mid.put (fs.locate target) (.file content executable) ∧
      mid.get? (fs.locate target) ≠ some .directory ∧
      (∃ found, mid.resolve target = .ok found) ∧
      after.resolve target = .ok (.found (fs.locate target) (.file content executable)) ∧
      (mid.WellFormed → after.WellFormed) := by
  unfold placeFile at h
  split at h
  next => cases h
  next mid hroom =>
    split at h
    next written hwrite =>
      cases h
      have hgrown := makeRoom_grown hroom
      obtain ⟨executable, hput, hnot, hresolve, hkeeps⟩ := writeFile_ok hwrite
      rw [locate_congr hgrown.current] at hput hnot hresolve
      refine ⟨mid, executable, hgrown, hput, hnot, ?_, hresolve, hkeeps⟩
      unfold writeFile at hwrite
      split at hwrite
      next => cases hwrite
      all_goals exact ⟨_, by assumption⟩
    next => cases h

theorem placeFile_error {e : ExtractionError}
    (h : placeFile fs target content = (after, .error e)) :
    Grown (fs.trail target) fs after := by
  unfold placeFile at h
  split at h
  next mid e hroom =>
    cases h
    exact makeRoom_grown hroom
  next mid hroom =>
    split at h
    next => cases h
    next =>
      cases h
      exact makeRoom_grown hroom

/-- What an entry that is extracted does: it is passed over, makes a directory, or places a file. -/
theorem extractOpened_ok {dest : PathText} {name : String} {opened : Zip.Opened}
    {done next : Extraction} (h : extractOpened fs dest done name opened = (after, .ok next)) :
    (Zip.Escapes name ∧ after = fs ∧ next = { done with rejected := done.rejected ++ [name] }) ∨
    (¬Zip.Escapes name ∧ Zip.isDirectoryName name = true ∧
      fs.createDirectories (Path.join dest name) = (after, .ok ()) ∧ next = done) ∨
    (¬Zip.Escapes name ∧ Zip.isDirectoryName name = false ∧ ∃ content,
      opened.content = .ok content ∧
      placeFile fs (Path.join dest name) content = (after, .ok ()) ∧
      next = done.addFile name (differs fs (Path.join dest name) content) content) := by
  unfold extractOpened at h
  dsimp only at h
  split at h
  next hout =>
    cases h
    refine Or.inl ⟨?_, rfl, rfl⟩
    by_contra hnot
    simp [(Zip.isEnclosed_iff name).mpr hnot] at hout
  next henclosed =>
    have hnot : ¬Zip.Escapes name := (Zip.isEnclosed_iff name).mp (by simpa using henclosed)
    refine Or.inr ?_
    split at h
    next hdirectory =>
      split at h
      next made hmade => cases h; exact Or.inl ⟨hnot, hdirectory, hmade, rfl⟩
      next => cases h
    next hfile =>
      split at h
      next => cases h
      next content hcontent =>
        split at h
        next made hplace =>
          cases h
          exact Or.inr ⟨hnot, by simpa using hfile, content, hcontent, hplace, rfl⟩
        next => cases h

/-- The outcome of an entry, apart from what was counted before it. -/
theorem extractOpened_eq (fs : FileSystem) (dest : PathText) (name : String) (opened : Zip.Opened) :
    ∃ after, ∃ effect : Except ExtractionError (Extraction → Extraction),
      ∀ done, extractOpened fs dest done name opened = (after, effect.map fun add => add done) := by
  unfold extractOpened
  dsimp only
  split
  · exact ⟨fs, .ok fun done => { done with rejected := done.rejected ++ [name] }, fun _ => rfl⟩
  split
  · split
    next made _ => exact ⟨made, .ok id, fun _ => rfl⟩
    next made e _ => exact ⟨made, .error (.notCreated (Path.join dest name) e), fun _ => rfl⟩
  split
  next e _ => exact ⟨fs, .error (.badContent name e), fun _ => rfl⟩
  next content _ =>
    split
    next made _ =>
      exact ⟨made, .ok fun done => done.addFile name (differs fs (Path.join dest name) content)
        content, fun _ => rfl⟩
    next made e _ => exact ⟨made, .error e, fun _ => rfl⟩

end SdkEvidence.Extraction
