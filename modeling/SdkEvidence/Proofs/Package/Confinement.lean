import SdkEvidence.Proofs.Package.Extraction

/-!
# Extraction stays in its directory

Whatever the names in an archive are and however the extraction ends, it changes nothing outside of
the destination but for new directories on the way there, and names that escape do nothing at all
(`extractInto_confined`). The invariant is that the way to the destination is there, so no entry
creates directories outside of it (`Anchored`).
-/
namespace SdkEvidence

open FileSystem

/-- The later file system differs from the earlier one inside of the directory that a path leads
to, and by new directories that the path passes through. -/
structure Confined (dest : PathText) (fs after : FileSystem) : Prop where
  current : after.current = fs.current
  node : ∀ loc, fs.locate dest <+: loc ∨ GrownAt (fs.trail dest) fs after loc

/-- Something stands wherever a path passes outside of its destination. -/
def Anchored (fs : FileSystem) (dest : PathText) : Prop :=
  ∀ loc ∈ fs.trail dest, fs.locate dest <+: loc ∨ (fs.get? loc).isSome = true

namespace Anchored

variable {fs after : FileSystem} {dest : PathText}

theorem of_within (h : Anchored fs dest) (hwithin : Within (fs.locate dest) fs after) :
    Anchored after dest := by
  intro loc hloc
  rw [trail_congr hwithin.current] at hloc
  rw [locate_congr hwithin.current]
  rcases h loc hloc with hbelow | hsome
  · exact Or.inl hbelow
  · by_cases hbelow : fs.locate dest <+: loc
    · exact Or.inl hbelow
    · exact Or.inr (by rw [hwithin.outside loc hbelow]; exact hsome)

theorem of_createDirectories (h : fs.createDirectories dest = (after, .ok ())) :
    Anchored after dest := by
  intro loc hloc
  by_cases hempty : dest = ""
  · subst hempty
    simp only [trail, Path.steps_empty, Location.trail, List.mem_singleton] at hloc
    subst hloc
    exact Or.inl (by simp [locate])
  · have hfind := createDirectories_ok h hempty
    exact Or.inr (by rw [(find?_directory_trail hfind).2 loc hloc]; rfl)

/-- Directories on the way to an enclosed name are created in the destination only. -/
theorem within_of_grown {name : String} (h : Anchored fs dest)
    (henclosed : Zip.isEnclosed name = true)
    (hgrown : Grown (fs.trail (Path.join dest name)) fs after) :
    Within (fs.locate dest) fs after := by
  refine ⟨hgrown.current, fun loc hloc => ?_, fun _ hget => hgrown.keeps hget, hgrown.wellFormed⟩
  rcases hgrown.node loc with hsame | ⟨hmem, habsent, -⟩
  · exact hsame
  · rw [mem_trail_join fs (Zip.depthAfter_of_enclosed henclosed).1] at hmem
    rcases hmem with hmem | hmem
    · rcases h loc hmem with hbelow | hsome
      · exact absurd hbelow hloc
      · rw [habsent] at hsome
        cases hsome
    · exact absurd (Zip.prefix_of_mem_trail henclosed _ loc hmem) hloc

end Anchored

namespace Extraction

variable {fs after : FileSystem} {dest : PathText}

theorem prefix_locate_join {name : String} (henclosed : Zip.isEnclosed name = true) :
    fs.locate dest <+: fs.locate (Path.join dest name) := by
  rw [locate_join fs (Zip.depthAfter_of_enclosed henclosed).1, Zip.reach_of_enclosed henclosed]
  exact List.prefix_append _ _

theorem placeFile_within {name : String} {content : ByteArray}
    {outcome : Except ExtractionError Unit} (hanchored : Anchored fs dest)
    (henclosed : Zip.isEnclosed name = true)
    (h : placeFile fs (Path.join dest name) content = (after, outcome)) :
    Within (fs.locate dest) fs after := by
  cases outcome with
  | ok u =>
    obtain ⟨mid, executable, hgrown, rfl, hnot, -, -, hwf⟩ := placeFile_ok h
    exact (hanchored.within_of_grown henclosed hgrown).trans
      (Within.put mid (prefix_locate_join henclosed) _ hnot hwf)
  | error e => exact hanchored.within_of_grown henclosed (placeFile_error h)

/-- One entry changes nothing outside of the destination. -/
theorem extractOpened_within {done : Extraction} {name : String} {opened : Zip.Opened}
    {outcome : Except ExtractionError Extraction} (hanchored : Anchored fs dest)
    (h : extractOpened fs dest done name opened = (after, outcome)) :
    Within (fs.locate dest) fs after := by
  unfold extractOpened at h
  dsimp only at h
  split at h
  next =>
    cases h
    exact Within.refl _ _
  next henclosed =>
    have henclosed : Zip.isEnclosed name = true := by simpa using henclosed
    split at h
    next =>
      split at h
      next made hmade =>
        cases h
        exact hanchored.within_of_grown henclosed (createDirectories_grown hmade)
      next made e hmade =>
        cases h
        exact hanchored.within_of_grown henclosed (createDirectories_grown hmade)
    next =>
      split at h
      next =>
        cases h
        exact Within.refl _ _
      next content _ =>
        split at h
        next made hplace =>
          cases h
          exact placeFile_within hanchored henclosed hplace
        next made e hplace =>
          cases h
          exact placeFile_within hanchored henclosed hplace

/-- All entries change nothing outside of the destination. -/
theorem extractMembers_within {members : List Zip.Member} {index : Nat} {done : Extraction}
    {outcome : Except ExtractionError Extraction} (hanchored : Anchored fs dest)
    (h : extractMembers dest index done fs members = (after, outcome)) :
    Within (fs.locate dest) fs after := by
  induction members generalizing index done fs with
  | nil =>
    cases h
    exact Within.refl _ _
  | cons member rest ih =>
    unfold extractMembers at h
    split at h
    next =>
      cases h
      exact Within.refl _ _
    next opened _ =>
      split at h
      next mid more hstep =>
        have hwithin := extractOpened_within hanchored hstep
        have hrest := ih (hanchored.of_within hwithin) h
        rw [locate_congr hwithin.current] at hrest
        exact hwithin.trans hrest
      next mid e hstep =>
        cases h
        exact extractOpened_within hanchored hstep

theorem layMembers_confined (dest : PathText) (fs : FileSystem) (members : List Zip.Member) :
    Confined dest fs (layMembers dest fs members).1 := by
  unfold layMembers
  split
  next made e hmade =>
    have hgrown := createDirectories_grown hmade
    exact ⟨hgrown.current, fun loc => Or.inr (hgrown.node loc)⟩
  next made hmade =>
    have hgrown := createDirectories_grown hmade
    have hwithin := extractMembers_within (Anchored.of_createDirectories hmade)
      (rfl : extractMembers dest 0 .empty made members = _)
    rw [locate_congr hgrown.current] at hwithin
    refine ⟨hwithin.current.trans hgrown.current, fun loc => ?_⟩
    by_cases hbelow : fs.locate dest <+: loc
    · exact Or.inl hbelow
    · refine Or.inr ?_
      rw [GrownAt, hwithin.outside loc hbelow]
      exact hgrown.node loc

/-- What was counted before does not change what is written. -/
theorem extractMembers_tree (dest : PathText) (fs : FileSystem) (members : List Zip.Member)
    (index index' : Nat) (done done' : Extraction) :
    (extractMembers dest index done fs members).1
      = (extractMembers dest index' done' fs members).1 := by
  induction members generalizing index index' done done' fs with
  | nil => rfl
  | cons member rest ih =>
    unfold extractMembers
    cases member.opened with
    | error e => rfl
    | ok opened =>
      obtain ⟨mid, effect, heffect⟩ := extractOpened_eq fs dest member.name opened
      dsimp only
      rw [heffect done, heffect done']
      cases effect with
      | error e => rfl
      | ok add => exact ih mid (index + 1) (index' + 1) (add done) (add done')

theorem extractOpened_of_escapes {name : String} (hescapes : Zip.Escapes name) (fs : FileSystem)
    (dest : PathText) (done : Extraction) (opened : Zip.Opened) :
    extractOpened fs dest done name opened
      = (fs, .ok { done with rejected := done.rejected ++ [name] }) := by
  have hout : Zip.isEnclosed name = false := by
    rw [Bool.eq_false_iff]
    exact fun henclosed => (Zip.isEnclosed_iff name).mp henclosed hescapes
  simp [extractOpened, hout]

/-- An entry with an escaping name changes nothing: without it the same is written, or nothing more
if the entry cannot be opened. -/
theorem extractMembers_skips {member : Zip.Member} (hescapes : Zip.Escapes member.name)
    (dest : PathText) (fs : FileSystem) (before rest : List Zip.Member) (index : Nat)
    (done : Extraction) :
    (extractMembers dest index done fs (before ++ member :: rest)).1
      = (extractMembers dest index done fs
          (before ++ if member.opened.isOk then rest else [])).1 := by
  induction before generalizing index done fs with
  | nil =>
    simp only [List.nil_append]
    rw [extractMembers]
    cases hopened : member.opened with
    | error e => rfl
    | ok opened =>
      simp only [extractOpened_of_escapes hescapes, Except.isOk, Except.toBool, if_true]
      exact extractMembers_tree _ _ _ _ _ _ _
  | cons first more ih =>
    simp only [List.cons_append, extractMembers]
    cases first.opened with
    | error e => rfl
    | ok opened =>
      dsimp only
      cases extractOpened fs dest done first.name opened with
      | mk mid outcome =>
        cases outcome with
        | error e => rfl
        | ok next => exact ih mid (index + 1) next

/-- The names that an entry adds to the rejected ones. -/
theorem extractOpened_rejected {done next : Extraction} {name : String} {opened : Zip.Opened}
    (h : extractOpened fs dest done name opened = (after, .ok next)) :
    next.rejected = done.rejected ++ [name].filter fun name => Zip.Escapes name := by
  rcases extractOpened_ok h with ⟨hescapes, -, rfl⟩ | ⟨hnot, -, -, rfl⟩ | ⟨hnot, -, _, -, -, rfl⟩
  · simp [hescapes]
  · simp [hnot]
  · simp [hnot, addFile]

theorem extractMembers_rejected {members : List Zip.Member} {index : Nat} {done result : Extraction}
    (h : extractMembers dest index done fs members = (after, .ok result)) :
    result.rejected
      = done.rejected ++ (members.map Zip.Member.name).filter fun name => Zip.Escapes name := by
  induction members generalizing index done fs with
  | nil =>
    cases h
    simp
  | cons member rest ih =>
    unfold extractMembers at h
    split at h
    next => cases h
    next opened _ =>
      split at h
      next mid next hstep =>
        rw [ih h, extractOpened_rejected hstep, List.append_assoc, ← List.filter_append]
        rfl
      next => cases h

theorem layMembers_skips {member : Zip.Member} (hescapes : Zip.Escapes member.name)
    (dest : PathText) (fs : FileSystem) (before rest : List Zip.Member) :
    (layMembers dest fs (before ++ member :: rest)).1
      = (layMembers dest fs (before ++ if member.opened.isOk then rest else [])).1 := by
  unfold layMembers
  split
  · rfl
  · exact extractMembers_skips hescapes _ _ _ _ _ _

theorem layMembers_rejected {members : List Zip.Member} {done : Extraction}
    (h : layMembers dest fs members = (after, .ok done)) :
    done.rejected = (members.map Zip.Member.name).filter fun name => Zip.Escapes name := by
  unfold layMembers at h
  split at h
  next => cases h
  next => simpa [Extraction.empty] using extractMembers_rejected h

end Extraction

theorem confined_extractInto (archive dest : PathText) (fs : FileSystem) :
    Confined dest fs (extractInto archive dest fs).1 := by
  unfold extractInto
  split
  · exact ⟨rfl, fun _ => Or.inr (Or.inl rfl)⟩
  · exact Extraction.layMembers_confined dest fs _

/-- An extraction works inside of a directory above its destination, if making the destination
does. -/
theorem extractInto_within_of_made {archive dest : PathText} {top : Location}
    {fs after : FileSystem} {outcome : Except ExtractionError Extraction}
    (htop : top <+: fs.locate dest)
    (hmade : ∀ made made?, fs.createDirectories dest = (made, made?) → Within top fs made)
    (h : extractInto archive dest fs = (after, outcome)) : Within top fs after := by
  unfold extractInto at h
  split at h
  next =>
    cases h
    exact Within.refl _ _
  next =>
    unfold Extraction.layMembers at h
    split at h
    next made e hcreate =>
      cases h
      exact hmade _ _ hcreate
    next made hcreate =>
      have hwithin := hmade _ _ hcreate
      have hrest := Extraction.extractMembers_within (Anchored.of_createDirectories hcreate) h
      rw [locate_congr hwithin.current] at hrest
      exact hwithin.trans (hrest.mono htop)

/-- An extraction into a directory below one that is there works inside of that one. -/
theorem extractInto_within {archive scratch : PathText} {name : String} {fs after : FileSystem}
    {outcome : Except ExtractionError Extraction} (hanchored : Anchored fs scratch)
    (henclosed : Zip.isEnclosed name = true)
    (h : extractInto archive (Path.join scratch name) fs = (after, outcome)) :
    Within (fs.locate scratch) fs after :=
  extractInto_within_of_made (Extraction.prefix_locate_join henclosed)
    (fun _ _ hmade => hanchored.within_of_grown henclosed (createDirectories_grown hmade)) h

/-- An extraction, whether it succeeds or not, changes nothing outside of its destination but for
new directories that the destination's path passes through. An entry whose name escapes changes
nothing anywhere, and the rejected names are the escaping ones in entry order. -/
theorem extractInto_confined (archive dest : PathText) (fs : FileSystem) :
    Confined dest fs (extractInto archive dest fs).1 ∧
    match Extraction.readArchive fs archive with
    | .error e => extractInto archive dest fs = (fs, .error e)
    | .ok members =>
        extractInto archive dest fs = Extraction.layMembers dest fs members ∧
        (∀ before member rest, members = before ++ member :: rest → Zip.Escapes member.name →
          (extractInto archive dest fs).1
            = (Extraction.layMembers dest fs
                (before ++ if member.opened.isOk then rest else [])).1) ∧
        ∀ done, (extractInto archive dest fs).2 = .ok done →
          done.rejected
            = (members.map Zip.Member.name).filter fun name => Zip.Escapes name := by
  refine ⟨confined_extractInto archive dest fs, ?_⟩
  cases hread : Extraction.readArchive fs archive with
  | error e => simp [extractInto, hread]
  | ok members =>
    have hrun : extractInto archive dest fs = Extraction.layMembers dest fs members := by
      simp [extractInto, hread]
    dsimp only
    rw [hrun]
    refine ⟨rfl, ?_, ?_⟩
    · rintro before member rest rfl hescapes
      exact Extraction.layMembers_skips hescapes dest fs before rest
    · intro done hdone
      exact Extraction.layMembers_rejected (Prod.ext rfl hdone)

end SdkEvidence
