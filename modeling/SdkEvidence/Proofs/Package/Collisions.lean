import SdkEvidence.Proofs.Package.Atomicity

/-!
# Reported collisions

A file that an entry writes over is reported when the entry's path led to it before the entry was
written: its digest is another one, and every directory that the path passes through was there
(`isReported_iff`). The collisions of a merge are the reported writes of all sub-packages but the
base, in write order (`mergeContainer_collisions`). A path through a directory that is only made
when the entry is written reaches the same file without being reported
(`unreported_collision`).
-/
namespace SdkEvidence

open FileSystem

/-- A file that is about to be written: the file system as it stands, the entry's name, the path
that it is extracted to and its content. -/
structure PendingWrite where
  before : FileSystem
  name : String
  target : PathText
  content : ByteArray

namespace PendingWrite

/-- The content of the file that is written over. -/
def old? (w : PendingWrite) : Option ByteArray :=
  w.before.contentAt? (w.before.locate w.target)

/-- Every directory that the path passes through is there. -/
def WayStands (w : PendingWrite) : Prop :=
  ∀ d ∈ Location.trail (w.before.start w.target) (Path.steps w.target).dropLast,
    w.before.get? d = some .directory

/-- Whether the write is reported as one over another content. -/
def isReported (w : PendingWrite) : Bool :=
  Extraction.differs w.before w.target w.content

/-- The write is done. -/
def Succeeds (w : PendingWrite) : Prop :=
  ∃ after, Extraction.placeFile w.before w.target w.content = (after, .ok ())

/-- A write that is done was reported exactly when the digests differ and the way was there. -/
theorem isReported_iff {w : PendingWrite} (h : w.Succeeds) :
    w.isReported = true
      ↔ (∃ old, w.old? = some old ∧ Sha256.hexDigest old ≠ Sha256.hexDigest w.content) ∧
        w.WayStands := by
  obtain ⟨after, hplace⟩ := h
  obtain ⟨mid, -, hgrown, -, -, ⟨found, hfound⟩, -⟩ := Extraction.placeFile_ok hplace
  have hread {old : ByteArray} : w.before.readFile w.target = .ok old ↔
      w.old? = some old ∧ w.WayStands := by
    constructor
    · intro hread
      obtain ⟨loc, executable, hresolve⟩ := readFile_eq_ok.mp hread
      obtain ⟨rfl, hget⟩ := resolve_found hresolve
      exact ⟨contentAt?_eq_some.mpr ⟨executable, hget⟩, resolve_trail hresolve⟩
    · rintro ⟨hold, hway⟩
      obtain ⟨executable, hget⟩ := contentAt?_eq_some.mp hold
      -- all that the path passes through was there before its directories were made
      have hsame : mid.resolve w.target = w.before.resolve w.target := by
        refine resolve_congr hgrown.current fun d hd => ?_
        rcases Location.mem_trail_iff_dropLast.mp hd with hd | rfl
        · rw [hway d hd, hgrown.keeps (hway d hd)]
        · exact (hgrown.keeps hget).trans hget.symm
      rw [hsame] at hfound
      rw [readFile_eq_ok]
      cases found with
      | found loc node =>
        obtain ⟨rfl, hnode⟩ := resolve_found hfound
        rw [hget] at hnode
        cases hnode
        exact ⟨_, executable, hfound⟩
      | free loc slash =>
        obtain ⟨rfl, habsent, -⟩ := resolve_free hfound
        rw [hget] at habsent
        cases habsent
  unfold isReported Extraction.differs FileSystem.digest
  cases hfile : w.before.readFile w.target with
  | ok old =>
    obtain ⟨hold, hway⟩ := hread.mp hfile
    simp [Except.map, hold, hway]
  | error e =>
    simp only [Except.map, Bool.false_eq_true, false_iff]
    rintro ⟨⟨old, hold, -⟩, hway⟩
    rw [hread.mpr ⟨hold, hway⟩] at hfile
    cases hfile

/-- What is reported is a write over other bytes. -/
theorem ne_of_isReported {w : PendingWrite} (h : w.Succeeds) (hreported : w.isReported = true) :
    ∃ old, w.old? = some old ∧ old ≠ w.content := by
  obtain ⟨⟨old, hold, hdigest⟩, -⟩ := (isReported_iff h).mp hreported
  refine ⟨old, hold, ?_⟩
  rintro rfl
  exact hdigest rfl

end PendingWrite

namespace Extraction

/-- The file that an entry is about to write. -/
def pending? (dest : PathText) (fs : FileSystem) (member : Zip.Member) : Option PendingWrite :=
  if Zip.Escapes member.name ∨ Zip.isDirectoryName member.name = true then none
  else
    match member.opened with
    | .ok { content := .ok content, .. } =>
        some { before := fs, name := member.name, target := Path.join dest member.name, content }
    | _ => none

/-- The file system after an entry. -/
def afterMember (dest : PathText) (fs : FileSystem) (member : Zip.Member) : FileSystem :=
  match member.opened with
  | .ok opened => (extractOpened fs dest .empty member.name opened).1
  | .error _ => fs

/-- The files that entries write, each with the file system just before. -/
def pendingWrites (dest : PathText) : FileSystem → List Zip.Member → List PendingWrite
  | _, [] => []
  | fs, member :: rest =>
      (pending? dest fs member).toList ++ pendingWrites dest (afterMember dest fs member) rest

/-- The files that an archive writes. -/
def archiveWrites (archive dest : PathText) (fs : FileSystem) : List PendingWrite :=
  match readArchive fs archive with
  | .error _ => []
  | .ok members => pendingWrites dest (fs.createDirectories dest).1 members

variable {fs after : FileSystem} {dest archive : PathText}

/-- One entry reports its write, which is done. -/
theorem extractOpened_overwritten {member : Zip.Member} {opened : Zip.Opened}
    {done next : Extraction} (hopened : member.opened = .ok opened)
    (h : extractOpened fs dest done member.name opened = (after, .ok next)) :
    next.overwritten = done.overwritten
        ++ ((pending? dest fs member).toList.filter PendingWrite.isReported).map
          PendingWrite.name ∧
      (∀ w ∈ pending? dest fs member, w.Succeeds) ∧ afterMember dest fs member = after := by
  have hafter : afterMember dest fs member = after := by
    obtain ⟨mid, effect, heffect⟩ := extractOpened_eq fs dest member.name opened
    rw [heffect] at h
    cases effect with
    | error e => cases h
    | ok add =>
      cases h
      simp [afterMember, hopened, heffect]
  rcases extractOpened_ok h with ⟨hescapes, -, rfl⟩ | ⟨-, hdirectory, -, rfl⟩ |
    ⟨hnot, hfile, content, hcontent, hplace, rfl⟩
  · exact ⟨by simp [pending?, hescapes], by simp [pending?, hescapes], hafter⟩
  · exact ⟨by simp [pending?, hdirectory], by simp [pending?, hdirectory], hafter⟩
  · have hpending : pending? dest fs member
        = some ⟨fs, member.name, Path.join dest member.name, content⟩ := by
      obtain ⟨method, opened⟩ := opened
      simp only at hcontent
      rw [pending?, if_neg (by simp [hnot, hfile]), hopened, hcontent]
    refine ⟨?_, ?_, hafter⟩
    · cases hreported : differs fs (Path.join dest member.name) content <;>
        simp [hpending, addFile, PendingWrite.isReported, hreported]
    · rintro w hw
      rw [hpending, Option.mem_some_iff] at hw
      subst hw
      exact ⟨after, hplace⟩

/-- The reported entries of an extraction that succeeds are the reported writes, in order. -/
theorem extractMembers_overwritten {members : List Zip.Member} {index : Nat}
    {done result : Extraction}
    (h : extractMembers dest index done fs members = (after, .ok result)) :
    result.overwritten = done.overwritten
        ++ ((pendingWrites dest fs members).filter PendingWrite.isReported).map
          PendingWrite.name ∧
      ∀ w ∈ pendingWrites dest fs members, w.Succeeds := by
  induction members generalizing index done fs with
  | nil =>
    cases h
    simp [pendingWrites]
  | cons member rest ih =>
    unfold extractMembers at h
    split at h
    next => cases h
    next opened hopened =>
      split at h
      next mid next hstep =>
        obtain ⟨hreported, hdone, hafter⟩ := extractOpened_overwritten hopened hstep
        obtain ⟨hrest, hlater⟩ := ih h
        rw [pendingWrites, hafter]
        constructor
        · rw [hrest, hreported, List.filter_append, List.map_append, List.append_assoc]
        · intro w hw
          rcases List.mem_append.mp hw with hw | hw
          · exact hdone w (by simpa using hw)
          · exact hlater w hw
      next => cases h

theorem extractInto_overwritten {result : Extraction}
    (h : extractInto archive dest fs = (after, .ok result)) :
    result.overwritten
        = ((archiveWrites archive dest fs).filter PendingWrite.isReported).map PendingWrite.name ∧
      ∀ w ∈ archiveWrites archive dest fs, w.Succeeds := by
  unfold extractInto at h
  split at h
  next => cases h
  next members hread =>
    unfold layMembers at h
    split at h
    next => cases h
    next made hmade =>
      simpa [archiveWrites, hread, hmade, Extraction.empty] using extractMembers_overwritten h

end Extraction

namespace Merge

/-- The files that sub-packages write over a directory, each with the name of its sub-package. -/
def overlayWrites (unpacked staging : PathText) :
    FileSystem → List WalkedFile → List (String × PendingWrite)
  | _, [] => []
  | fs, split :: rest =>
      let archive := Path.join unpacked split.relative
      (Extraction.archiveWrites archive staging fs).map (fun w => (split.name, w))
        ++ overlayWrites unpacked staging (extractInto archive staging fs).1 rest

/-- The collision that a reported write is. -/
def collisionOf (write : String × PendingWrite) : MergeCollision :=
  { path := write.2.name, overwrittenBy := write.1 }

/-- The collisions of an overlay are its reported writes, in order. -/
theorem overlay_collisions {unpacked staging : PathText} {files : List WalkedFile}
    {fs after : FileSystem} {result : List MergeCollision × List String}
    (h : (overlay unpacked staging files).runIn fs = (.ok result, after)) :
    result.1 = ((overlayWrites unpacked staging fs files).filter fun write =>
        write.2.isReported).map collisionOf ∧
      ∀ write ∈ overlayWrites unpacked staging fs files, write.2.Succeeds := by
  induction files generalizing fs result with
  | nil =>
    cases h
    simp [overlayWrites]
  | cons file rest ih =>
    rw [overlay] at h
    obtain ⟨done, mid, hstep, hrest⟩ := Action.runIn_bind_ok.mp h
    obtain ⟨more, last, hlater, hend⟩ := Action.runIn_bind_ok.mp hrest
    rw [Action.runIn_step_ok] at hstep
    cases hend
    obtain ⟨hfirst, hdone⟩ := Extraction.extractInto_overwritten hstep
    obtain ⟨hmore, hlast⟩ := ih hlater
    rw [overlayWrites, hstep]
    constructor
    · simp only [collisionsOf, hfirst, hmore, List.filter_append, List.map_append, List.filter_map,
        List.map_map]
      rfl
    · intro write hwrite
      rcases List.mem_append.mp hwrite with hwrite | hwrite
      · obtain ⟨w, hw, rfl⟩ := List.mem_map.mp hwrite
        exact hdone w hw
      · exact hlast write hwrite

/-- What an assembly that succeeds has done before it reports its collisions. -/
theorem assemble_collisions {scratch container : PathText} {fs after : FileSystem}
    {assembly : Assembly} (h : (assemble scratch container).runIn fs = (.ok assembly, after)) :
    ∃ unpacked based, Planned scratch container fs unpacked (some assembly.plan) ∧
      Laid (unpackedIn scratch) (stagingIn scratch) unpacked [assembly.plan.base] based ∧
      let writes :=
        overlayWrites (unpackedIn scratch) (stagingIn scratch) based assembly.plan.overlays
      assembly.collisions = (writes.filter fun write => write.2.isReported).map collisionOf ∧
        ∀ write ∈ writes, write.2.Succeeds := by
  obtain ⟨opened, unpacked, base, based, rejected, laid, hopened, hplan, hbase, hoverlay, -, -⟩ :=
    runIn_assemble_ok.mp h
  exact ⟨unpacked, based, ⟨opened, hopened, hplan⟩, .cons hbase (.nil based),
    overlay_collisions hoverlay⟩

end Merge

/-- The collisions of a merge are the reported writes of the sub-packages after the base, in write
order. A write is reported exactly when its destination held a file with another digest just before,
and every directory that its path passes through was there. -/
theorem mergeContainer_collisions (scratch : Option PathText) (container output : PathText)
    (fs : FileSystem) (wf : fs.WellFormed) (outcome : MergeOutcome) (after : FileSystem)
    (h : (mergeContainer scratch container output).runIn fs = (.ok outcome, after)) :
    ∃ made mid unpacked plan based, Merge.Scratched scratch fs made mid ∧
      Merge.Planned made.path container mid unpacked (some plan) ∧
      Merge.Laid (Merge.unpackedIn made.path) (Merge.stagingIn made.path) unpacked [plan.base]
        based ∧
      let writes := Merge.overlayWrites (Merge.unpackedIn made.path) (Merge.stagingIn made.path)
        based plan.overlays
      outcome.collisions
          = (writes.filter fun write => write.2.isReported).map Merge.collisionOf ∧
        ∀ split w, (split, w) ∈ writes →
          (w.isReported = true
            ↔ (∃ old, w.old? = some old ∧ Sha256.hexDigest old ≠ Sha256.hexDigest w.content) ∧
              w.WayStands) := by
  obtain ⟨-, made, mid, assembly, package, packed, hscratched, -, hassembled, houtcome, -⟩ :=
    Merge.mergeContainer_ok wf h
  obtain ⟨unpacked, based, hplanned, hlaid, hcollisions, hdone⟩ :=
    Merge.assemble_collisions hassembled.run
  refine ⟨made, mid, unpacked, assembly.plan, based, hscratched, hplanned, hlaid, ?_, ?_⟩
  · rw [houtcome]
    exact hcollisions
  intro split w hw
  have hsucceeds : w.Succeeds := hdone (split, w) hw
  exact PendingWrite.isReported_iff hsucceeds

/-- The reported writes of a merge whose split names a file of the base by another way. -/
theorem mergeContainer_collisions_two_names :
    ∃ made mid unpacked plan based,
      Merge.Scratched none Merge.TwoNames.before made mid ∧
      Merge.Planned made.path "/in.apks" mid unpacked (some plan) ∧
      Merge.Laid (Merge.unpackedIn made.path) (Merge.stagingIn made.path) unpacked [plan.base]
        based ∧
      Merge.TwoNames.assembly.collisions
        = ((Merge.overlayWrites (Merge.unpackedIn made.path) (Merge.stagingIn made.path) based
            plan.overlays).filter fun write => write.2.isReported).map Merge.collisionOf := by
  obtain ⟨made, mid, unpacked, plan, based, hscratched, hplanned, hlaid, hcollisions, -⟩ :=
    mergeContainer_collisions none "/in.apks" "/out.apk" Merge.TwoNames.before
      Merge.TwoNames.wellFormed _ _ Merge.TwoNames.merges
  exact ⟨made, mid, unpacked, plan, based, hscratched, hplanned, hlaid, hcollisions⟩

/-- What the split writes. -/
def Merge.TwoNames.dottedWrite : PendingWrite :=
  { before := based
    name := dotted.name
    target := Path.join (stagingIn made.path) dotted.name
    content := dotted.content }

theorem Merge.TwoNames.overlayWrites_eq :
    overlayWrites (unpackedIn made.path) (stagingIn made.path) based plan.overlays
      = [(splitFile.name, dottedWrite)] := by
  have hoverlays : plan.overlays = [splitFile] := rfl
  have hstands : (based.createDirectories (stagingIn made.path)).1 = based := by rfl
  have hname : ¬(Zip.Escapes dotted.name ∨ Zip.isDirectoryName dotted.name = true) := by
    decide +kernel
  rw [hoverlays]
  simp only [overlayWrites, Extraction.archiveWrites, readSplit, hstands, Extraction.pendingWrites,
    Extraction.pending?, Zip.NewFile.toMember, if_neg hname]
  rfl

/-- A split writes over a file of the base with other bytes, and the merge reports no collision: the
split's name for the file passes through a directory that is made when the file is written. -/
theorem unreported_collision :
    ∃ outcome after made mid unpacked plan based,
      (mergeContainer none "/in.apks" "/out.apk").runIn Merge.TwoNames.before
        = (.ok outcome, after) ∧
      Merge.Scratched none Merge.TwoNames.before made mid ∧
      Merge.Planned made.path "/in.apks" mid unpacked (some plan) ∧
      Merge.Laid (Merge.unpackedIn made.path) (Merge.stagingIn made.path) unpacked [plan.base]
        based ∧
      outcome.collisions = [] ∧
      ∃ split w old,
        (split, w) ∈ Merge.overlayWrites (Merge.unpackedIn made.path)
          (Merge.stagingIn made.path) based plan.overlays ∧
        w.old? = some old ∧ old ≠ w.content := by
  refine ⟨_, _, Merge.TwoNames.made, Merge.TwoNames.scratched, Merge.TwoNames.unpacked,
    Merge.TwoNames.plan, Merge.TwoNames.based, Merge.TwoNames.merges, Merge.TwoNames.scratch,
    ⟨_, Merge.TwoNames.unpack, Merge.TwoNames.planned⟩, .cons Merge.TwoNames.layBase (.nil _), rfl,
    Merge.TwoNames.splitFile.name, Merge.TwoNames.dottedWrite, Merge.TwoNames.plain.content,
    ?_, ?_, ?_⟩
  · rw [Merge.TwoNames.overlayWrites_eq]
    exact List.mem_singleton_self _
  · rfl
  · decide

end SdkEvidence
