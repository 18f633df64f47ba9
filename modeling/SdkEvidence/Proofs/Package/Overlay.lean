import SdkEvidence.Proofs.Evidence.Accumulation
import SdkEvidence.Proofs.Package.Layers

/-!
# Extraction overlays its destination

An extraction that succeeds has laid every entry that is a file over what was there; one that fails
has laid those before the entry that fails, and that entry has changed no file. Each entry takes one
step: it writes the file that it is to write (`extractOpened_adds`) and keeps whatever stands
elsewhere (`extractOpened_keeps`), or it fails and has only added directories
(`extractMember_error`). So a run that fails is a run over the entries before, followed by one step
(`extractMembers_error`), and both ends are described by the same overlay (`extractInto_overlaid`).
-/
namespace SdkEvidence

open FileSystem

namespace Zip

/-- The file that an entry lays: its content, where its name leads. -/
structure Member.Lays (member : Member) (write : Location × ByteArray) : Prop where
  place : write.1 = Location.reach [] (Path.steps member.name)
  content : ∃ method, member.opened = .ok { method, content := .ok write.2 }

variable {member : Member} {members : List Member}

theorem Member.lays_of_write? {write : Location × ByteArray} (h : member.write? = some write) :
    member.Lays write := by
  unfold write? at h
  split at h
  next => cases h
  next =>
    split at h
    next method content hopened =>
      cases h
      exact ⟨rfl, method, hopened⟩
    next => cases h

/-- Entries of which all files could be read lay one file each. -/
theorem lays_writes (h : ∀ member ∈ members, member.IsFile → member.write?.isSome = true) :
    List.Forall₂ Member.Lays (members.filter Member.IsFile) (writes members) := by
  induction members with
  | nil => exact List.Forall₂.nil
  | cons member rest ih =>
    have hrest := ih fun other hother => h other (List.mem_cons_of_mem _ hother)
    rw [writes_cons]
    by_cases hfile : member.IsFile
    · obtain ⟨write, hwrite⟩ := Option.isSome_iff_exists.mp (h member List.mem_cons_self hfile)
      rw [List.filter_cons_of_pos (by simpa using hfile), hwrite]
      exact List.Forall₂.cons (Member.lays_of_write? hwrite) hrest
    · rw [List.filter_cons_of_neg (by simpa using hfile), Member.write?_of_not_isFile hfile]
      exact hrest

end Zip

/-- The later file system is the earlier one with entries laid over a directory: the entries that
are files have all been read, each way has the content of the last entry for it or else what it had,
and what stands where no entry leads is as it was. -/
structure Overlaid (dest : PathText) (members : List Zip.Member) (fs after : FileSystem) :
    Prop where
  log : List.Forall₂ Zip.Member.Lays (members.filter Zip.Member.IsFile) (Zip.writes members)
  content : ∀ way, after.contentAt? (fs.locate dest ++ way)
    = (Zip.lastWrite (Zip.writes members) way).or (fs.contentAt? (fs.locate dest ++ way))
  untouched : ∀ way, way ∉ (Zip.writes members).map Prod.fst → ∀ node,
    fs.get? (fs.locate dest ++ way) = some node → after.get? (fs.locate dest ++ way) = some node

namespace Overlaid

variable {fs mid after : FileSystem} {dest : PathText} {members : List Zip.Member}
  {made : List Location}

theorem nil_of_grown (h : Grown made fs after) : Overlaid dest [] fs after :=
  ⟨List.Forall₂.nil, fun _ => h.contentAt? _, fun _ _ _ => h.keeps⟩

/-- Directories may be added before. -/
theorem after_grown (hgrown : Grown made fs mid) (h : Overlaid dest members mid after) :
    Overlaid dest members fs after := by
  have hlocate := locate_congr hgrown.current dest
  refine ⟨h.log, fun way => ?_, fun way hway node hget => ?_⟩
  · rw [← hgrown.contentAt?, ← hlocate, h.content]
  · rw [← hlocate] at hget ⊢
    exact h.untouched way hway node (hgrown.keeps hget)

/-- Directories may be added afterwards. -/
theorem before_grown (h : Overlaid dest members fs mid) (hgrown : Grown made mid after) :
    Overlaid dest members fs after := by
  refine ⟨h.log, fun way => ?_, fun way hway node hget => ?_⟩
  · rw [hgrown.contentAt?, h.content]
  · exact hgrown.keeps (h.untouched way hway node hget)

end Overlaid

namespace Extraction

variable {fs after : FileSystem} {dest : PathText} {done next : Extraction}
  {member : Zip.Member} {members : List Zip.Member} {opened : Zip.Opened} {e : ExtractionError}

/-- What entries add to what an extraction tells: each file has been read, and they and their bytes
have been counted. -/
structure Adds (members : List Zip.Member) (done next : Extraction) : Prop where
  read : ∀ member ∈ members, member.IsFile → member.write?.isSome = true
  written : next.written = done.written + (Zip.writes members).length
  bytes : next.bytes = done.bytes + total ((Zip.writes members).map fun write => write.2.size)

theorem Adds.cons {mid : Extraction} {rest : List Zip.Member} (hfirst : Adds [member] done mid)
    (hrest : Adds rest mid next) : Adds (member :: rest) done next := by
  have hsplit := Zip.writes_append [member] rest
  rw [List.singleton_append] at hsplit
  refine ⟨fun other hother hfile => ?_, ?_, ?_⟩
  · rcases List.mem_cons.mp hother with rfl | hother
    · exact hfirst.read _ List.mem_cons_self hfile
    · exact hrest.read other hother hfile
  · rw [hrest.written, hfirst.written, hsplit, List.length_append, Nat.add_assoc]
  · rw [hrest.bytes, hfirst.bytes, hsplit, List.map_append, total_append, Nat.add_assoc]

/-- An entry that is extracted is counted, if it is a file. -/
theorem extractOpened_adds (hopened : member.opened = .ok opened)
    (h : extractOpened fs dest done member.name opened = (after, .ok next)) :
    Adds [member] done next := by
  have hnone (hnot : ¬member.IsFile) (hwritten : next.written = done.written)
      (hbytes : next.bytes = done.bytes) : Adds [member] done next := by
    have hwrites : Zip.writes [member] = [] := by
      simp [Zip.writes, Zip.Member.write?_of_not_isFile hnot]
    refine ⟨fun other hother hfile => ?_, by simp [hwrites, hwritten],
      by simp [hwrites, hbytes, total]⟩
    rw [List.mem_singleton.mp hother] at hfile
    exact absurd hfile hnot
  rcases extractOpened_ok h with ⟨hescapes, -, rfl⟩ | ⟨-, hdirectory, -, rfl⟩ |
    ⟨hnot, hfile, content, hcontent, -, rfl⟩
  · exact hnone (fun hmember => hmember.1 hescapes) rfl rfl
  · exact hnone (fun hmember => by simp [hmember.2] at hdirectory) rfl rfl
  · have hwrite := Zip.Member.write?_of_isFile ⟨hnot, hfile⟩ hopened hcontent
    have hwrites : Zip.writes [member]
        = [(Location.reach [] (Path.steps member.name), content)] := by
      simp [Zip.writes, hwrite]
    refine ⟨fun other hother _ => ?_, by simp [hwrites, addFile],
      by simp [hwrites, addFile, total]⟩
    rw [List.mem_singleton.mp hother, hwrite]
    rfl

/-- An entry that is extracted keeps what stands where it does not write. -/
theorem extractOpened_keeps (hopened : member.opened = .ok opened)
    (h : extractOpened fs dest done member.name opened = (after, .ok next)) {way : Location}
    (hway : way ∉ (Zip.writes [member]).map Prod.fst) {node : Node}
    (hget : fs.get? (fs.locate dest ++ way) = some node) :
    after.get? (fs.locate dest ++ way) = some node := by
  rcases extractOpened_ok h with ⟨-, rfl, -⟩ | ⟨-, -, hmade, -⟩ |
    ⟨hnot, hfile, content, hcontent, hplace, -⟩
  · exact hget
  · exact (createDirectories_grown hmade).keeps hget
  · obtain ⟨mid, executable, hgrown, rfl, -⟩ := placeFile_ok hplace
    have henclosed : Zip.isEnclosed member.name = true := (Zip.isEnclosed_iff _).mpr hnot
    have hne : fs.locate dest ++ way ≠ fs.locate (Path.join dest member.name) := by
      rw [locate_join fs (Zip.depthAfter_of_enclosed henclosed).1,
        Zip.reach_of_enclosed henclosed]
      intro heq
      have hwrite := Zip.Member.write?_of_isFile ⟨hnot, hfile⟩ hopened hcontent
      simp [Zip.writes, hwrite, List.append_cancel_left heq] at hway
    rw [get?_put_of_ne mid hne]
    exact hgrown.keeps hget

/-- Entries that are all extracted are counted, and overlay the destination. -/
theorem extractMembers_overlaid {index : ℕ} (hanchored : Anchored fs dest)
    (h : extractMembers dest index done fs members = (after, .ok next)) :
    Adds members done next ∧ Overlaid dest members fs after := by
  have hcontent := extractMembers_contentAt? hanchored h
  suffices hrun : Adds members done next ∧ ∀ way, way ∉ (Zip.writes members).map Prod.fst →
      ∀ node, fs.get? (fs.locate dest ++ way) = some node →
        after.get? (fs.locate dest ++ way) = some node from
    ⟨hrun.1, ⟨Zip.lays_writes hrun.1.read, hcontent, hrun.2⟩⟩
  -- the contents are known; what is counted and what is kept goes from entry to entry
  clear hcontent
  induction members generalizing index done fs with
  | nil =>
    cases h
    exact ⟨⟨by simp, rfl, rfl⟩, fun _ _ _ hget => hget⟩
  | cons member rest ih =>
    unfold extractMembers at h
    split at h
    next => cases h
    next opened hopened =>
      split at h
      next mid more hstep =>
        have hwithin := extractOpened_within hanchored hstep
        obtain ⟨hadds, hkeeps⟩ := ih (hanchored.of_within hwithin) h
        rw [locate_congr hwithin.current] at hkeeps
        refine ⟨(extractOpened_adds hopened hstep).cons hadds, fun way hway node hget => ?_⟩
        rw [← List.singleton_append, Zip.writes_append, List.map_append, List.mem_append,
          not_or] at hway
        exact hkeeps way hway.2 node (extractOpened_keeps hopened hstep hway.1 hget)
      next => cases h

/-- A run that fails has extracted the entries before the one that fails. -/
theorem extractMembers_error {index : ℕ}
    (h : extractMembers dest index done fs members = (after, .error e)) :
    ∃ before member rest mid next, members = before ++ member :: rest ∧
      extractMembers dest index done fs before = (mid, .ok next) ∧
      extractMembers dest (index + before.length) next mid [member] = (after, .error e) := by
  induction members generalizing index done fs with
  | nil => cases h
  | cons member rest ih =>
    rw [extractMembers] at h
    split at h
    next e' hopened =>
      cases h
      refine ⟨[], member, rest, _, done, rfl, rfl, ?_⟩
      rw [extractMembers, hopened]
      rfl
    next opened hopened =>
      split at h
      next mid more hstep =>
        obtain ⟨before, failing, later, last, next, rfl, hbefore, hfails⟩ := ih h
        refine ⟨member :: before, failing, later, last, next, rfl, ?_, ?_⟩
        · rw [extractMembers, hopened]
          dsimp only
          rw [hstep]
          exact hbefore
        · rwa [List.length_cons, Nat.add_comm before.length 1, ← Nat.add_assoc]
      next mid e' hstep =>
        cases h
        refine ⟨[], member, rest, _, done, rfl, rfl, ?_⟩
        rw [extractMembers, hopened]
        dsimp only
        rw [hstep]

/-- An entry that fails has only added directories. -/
theorem extractOpened_error {name : String}
    (h : extractOpened fs dest done name opened = (after, .error e)) :
    Grown (fs.trail (Path.join dest name)) fs after := by
  unfold extractOpened at h
  dsimp only at h
  split at h
  next => cases h
  next =>
    split at h
    next =>
      split at h
      next => cases h
      next made e hmade =>
        cases h
        exact createDirectories_grown hmade
    next =>
      split at h
      next =>
        cases h
        exact Grown.refl _ _
      next =>
        split at h
        next => cases h
        next made e hplace =>
          cases h
          exact placeFile_error hplace

theorem extractMember_error {index : ℕ}
    (h : extractMembers dest index done fs [member] = (after, .error e)) :
    Grown (fs.trail (Path.join dest member.name)) fs after := by
  rw [extractMembers] at h
  split at h
  next =>
    cases h
    exact Grown.refl _ _
  next =>
    split at h
    next => cases h
    next made e hfails =>
      cases h
      exact extractOpened_error hfails

theorem layMembers_overlaid (h : layMembers dest fs members = (after, .ok done)) :
    Overlaid dest members fs after ∧ done.written = (members.filter Zip.Member.IsFile).length ∧
      done.bytes = total ((Zip.writes members).map fun write => write.2.size) := by
  unfold layMembers at h
  split at h
  next => cases h
  next made hmade =>
    obtain ⟨hadds, hover⟩ := extractMembers_overlaid (Anchored.of_createDirectories hmade) h
    refine ⟨hover.after_grown (createDirectories_grown hmade), ?_, ?_⟩
    · rw [hadds.written, hover.log.length_eq]
      exact Nat.zero_add _
    · rw [hadds.bytes]
      exact Nat.zero_add _

/-- Laying entries fails before the first one or at one of them, which has changed no file. -/
theorem layMembers_error (h : layMembers dest fs members = (after, .error e)) :
    (∃ os, fs.createDirectories dest = (after, .error os) ∧ e = .notCreated dest os ∧
      Overlaid dest [] fs after) ∨
    ∃ before member rest mid done, members = before ++ member :: rest ∧
      layMembers dest fs before = (mid, .ok done) ∧
      extractMembers dest before.length done mid [member] = (after, .error e) ∧
      Overlaid dest before fs after ∧ ∀ loc, after.contentAt? loc = mid.contentAt? loc := by
  unfold layMembers at h
  split at h
  next made os hmade =>
    cases h
    exact Or.inl ⟨os, hmade, rfl, Overlaid.nil_of_grown (createDirectories_grown hmade)⟩
  next made hmade =>
    obtain ⟨before, member, rest, mid, next, hmembers, hbefore, hfails⟩ := extractMembers_error h
    rw [Nat.zero_add] at hfails
    have hgrown := extractMember_error hfails
    have hlaid : layMembers dest fs before = (mid, .ok next) := by
      rw [layMembers, hmade]
      exact hbefore
    refine Or.inr ⟨before, member, rest, mid, next, hmembers, hlaid, hfails, ?_, ?_⟩
    · exact (layMembers_overlaid hlaid).1.before_grown hgrown
    · exact hgrown.contentAt?

end Extraction
end SdkEvidence
