import SdkEvidence.Proofs.FileSystem.Growth

/-!
# Reading, writing and moving files

A file that was written or moved is read where its path leads (`writeFile_ok`, `moveFile_ok`), and
read again as long as nothing that was there is gone or changed (`readFile_of_keeps`).
-/
namespace SdkEvidence.FileSystem

/-- Writing a file puts it where the path leads; there was a file, or nothing in a directory. -/
theorem writeFile_ok {fs after : FileSystem} {p : PathText} {content : ByteArray}
    (h : fs.writeFile p content = .ok after) :
    ∃ executable, after = fs.put (fs.locate p) (.file content executable) ∧
      fs.get? (fs.locate p) ≠ some .directory ∧
      after.resolve p = .ok (.found (fs.locate p) (.file content executable)) ∧
      (fs.WellFormed → after.WellFormed) := by
  unfold writeFile at h
  split at h
  next => cases h
  next loc old executable hresolve =>
    cases h
    obtain ⟨rfl, hget⟩ := resolve_found hresolve
    refine ⟨executable, rfl, by simp [hget], ?_, fun wf => wf.replace hget _⟩
    exact resolve_put hresolve (Or.inr ⟨old, executable, rfl⟩)
  next => cases h
  next loc slash hresolve =>
    split at h
    next => cases h
    next hslash =>
      cases h
      obtain ⟨rfl, habsent, dir, name, hsplit, hdir, hname⟩ := resolve_free hresolve
      refine ⟨false, rfl, by simp [habsent], ?_, fun wf => ?_⟩
      · exact resolve_put hresolve (Or.inl ⟨slash, rfl, Or.inl (by simpa using hslash)⟩)
      · rw [hsplit] at habsent ⊢
        exact wf.put hdir hname (Or.inr (by simp [habsent]))

theorem readFile_eq_ok {fs : FileSystem} {p : PathText} {content : ByteArray} :
    fs.readFile p = .ok content
      ↔ ∃ loc executable, fs.resolve p = .ok (.found loc (.file content executable)) := by
  unfold readFile
  split
  next h => simp [h]
  next h => simp [h]
  next h => simp [h]
  next h => simp [h]

/-- A file is read again as long as nothing that was there is gone or changed. -/
theorem readFile_of_keeps {fs after : FileSystem} {p : PathText} {content : ByteArray}
    (hcurrent : after.current = fs.current)
    (hkeeps : ∀ loc node, fs.get? loc = some node → after.get? loc = some node)
    (h : fs.readFile p = .ok content) : after.readFile p = .ok content := by
  rw [readFile_eq_ok] at h ⊢
  obtain ⟨loc, executable, hresolve⟩ := h
  obtain ⟨hloc, hget⟩ := resolve_found hresolve
  refine ⟨loc, executable, ?_⟩
  rw [resolve_congr hcurrent fun d hd => ?_]
  · exact hresolve
  · rcases Location.mem_trail_iff_dropLast.mp hd with hd | rfl
    · have hdir := resolve_trail hresolve d hd
      rw [hdir, hkeeps d _ hdir]
    · rw [hloc] at hget
      exact (hkeeps _ _ hget).trans hget.symm

/-- A move goes to a file or to a free name, in a directory. -/
theorem moveFile_target {fs after : FileSystem} (wf : fs.WellFormed) {source : Location}
    {p : PathText} {node : Node} (hsource : fs.get? source = some node)
    (h : fs.moveFile source p = .ok after) :
    after = (fs.removeTree source).put (fs.locate p) node ∧
      fs.get? (fs.locate p) ≠ some .directory ∧
      (∃ dir name, fs.locate p = dir ++ [name] ∧ IsName name ∧ fs.get? dir = some .directory) ∧
      ∃ target, fs.resolve p = .ok target ∧ Target.Takes target (fs.locate p) node := by
  unfold moveFile at h
  rw [hsource] at h
  dsimp only at h
  split at h
  next => cases h
  next => cases h
  next loc old mode hresolve =>
    cases h
    obtain ⟨rfl, hget⟩ := resolve_found hresolve
    exact ⟨rfl, by simp [hget], wf.exists_directory hget, _, hresolve, Or.inr ⟨old, mode, rfl⟩⟩
  next loc slash hresolve =>
    split at h
    next => cases h
    next hslash =>
      cases h
      obtain ⟨rfl, habsent, dir, name, hsplit, hdir, hname⟩ := resolve_free hresolve
      exact ⟨rfl, by simp [habsent], ⟨dir, name, hsplit, hname, hdir⟩, _, hresolve,
        Or.inl ⟨slash, rfl, Or.inl (by simpa using hslash)⟩⟩

/-- A file that is moved is read where it was moved to. -/
theorem moveFile_ok {fs after : FileSystem} (wf : fs.WellFormed) {source : Location}
    {p : PathText} {content : ByteArray} {executable : Bool}
    (hsource : fs.get? source = some (.file content executable))
    (h : fs.moveFile source p = .ok after) :
    after = (fs.removeTree source).put (fs.locate p) (.file content executable) ∧
      after.readFile p = .ok content ∧ after.WellFormed := by
  obtain ⟨rfl, hnot, ⟨dir, name, hsplit, hname, hdir⟩, target, hresolve, htakes⟩ :=
    moveFile_target wf hsource h
  -- no directory stands at or below a file
  have hkept {d : Location} (hd : fs.get? d = some .directory) : ¬source <+: d := by
    rintro ⟨way, rfl⟩
    by_cases hway : way = []
    · rw [hway, List.append_nil, hsource] at hd
      cases hd
    · have hdir := wf.directory_of_below hway (by rw [hd]; rfl)
      rw [hsource] at hdir
      cases hdir
  have hstays {d : Location} (hd : fs.get? d = some .directory) :
      (fs.removeTree source).get? d = some .directory := by
    by_cases hnil : d = []
    · simp [hnil]
    · rw [get?_removeTree _ _ _ hnil, if_neg (hkept hd), hd]
  refine ⟨rfl, ?_, ?_⟩
  · rw [readFile_eq_ok]
    refine ⟨fs.locate p, executable, ?_⟩
    rw [← resolve_put hresolve htakes]
    refine resolve_congr (by simp) fun d hd => ?_
    rw [trail_congr (put_current _ _ _)] at hd
    by_cases hhere : d = fs.locate p
    · subst hhere
      rw [get?_put, get?_put]
      split <;> simp
    rcases Location.mem_trail_iff_dropLast.mp hd with hd | rfl
    · have hdir := resolve_trail hresolve d hd
      rw [get?_put_of_ne _ hhere, get?_put_of_ne _ hhere, hstays hdir, hdir]
    · exact absurd rfl hhere
  · have hnot' : (fs.removeTree source).get? (fs.locate p) ≠ some .directory := by
      intro hmoved
      rw [get?_removeTree _ _ _ (by simp [hsplit])] at hmoved
      split at hmoved
      next => cases hmoved
      next => exact hnot hmoved
    rw [hsplit] at hnot' ⊢
    exact (wf.removeTree source).put (hstays hdir) hname (Or.inr hnot')

end SdkEvidence.FileSystem
