import SdkEvidence.Proofs.FileSystem.Names
import SdkEvidence.Proofs.Package.Recompression
import SdkEvidence.Total

/-!
# Laying the files of a tree

The entries that recompression makes of the files of a tree are extracted one by one without
complaint (`Laid.step`, `extractMembers_of_laid`): no file stands in the way of a later one, so the
missing directories are created and nothing is overwritten. What an extraction leaves has names that
can be packed again, whatever the archive is (`extractInto_storing`).
-/
namespace SdkEvidence

open FileSystem

namespace Path

/-- A joined path ends as its last part does, or with a slash. -/
theorem getLast?_of_join {p q : PathText} {c : Char} (hc : c ≠ '/')
    (h : (join p q).toList.getLast? = some c) : q.toList.getLast? = some c := by
  unfold join at h
  split at h
  next => exact h
  next =>
    split at h
    next hbase =>
      rw [String.toList_append, List.getLast?_append, Option.or_eq_some_iff] at h
      rcases h with h | ⟨-, h⟩
      · exact h
      · rcases hbase with rfl | hslash
        · cases h
        · exact absurd (Option.some.inj (h.symm.trans hslash)) hc
    next =>
      rw [String.toList_append, List.getLast?_append, Option.or_eq_some_iff] at h
      rcases h with h | ⟨-, h⟩
      · exact h
      · rw [String.toList_append, List.getLast?_append] at h
        exact absurd (Option.some.inj h).symm hc

end Path

namespace Extraction

variable {fs after : FileSystem} {dest : PathText}

theorem makeRoom_storing (fs : FileSystem) (target : PathText) :
    Storing fs (makeRoom fs target).1 := by
  unfold makeRoom
  split
  next => exact .refl fs
  next above _ =>
    have hmade := createDirectories_storing fs above
    split
    all_goals
      next h =>
        rw [h] at hmade
        exact hmade

theorem placeFile_storing (fs : FileSystem) {target : PathText} (content : ByteArray)
    (htarget : target.toList.getLast? ≠ some '\\') :
    Storing fs (placeFile fs target content).1 := by
  have hroom := makeRoom_storing fs target
  unfold placeFile
  split
  next h =>
    rw [h] at hroom
    exact hroom
  next mid h =>
    rw [h] at hroom
    split
    next hwrite => exact hroom.trans (writeFile_storing htarget hwrite)
    next => exact hroom

theorem extractOpened_storing (fs : FileSystem) (dest : PathText) (done : Extraction)
    (name : String) (opened : Zip.Opened) :
    Storing fs (extractOpened fs dest done name opened).1 := by
  unfold extractOpened
  dsimp only
  split
  next => exact .refl fs
  next =>
    split
    next =>
      have hmade := createDirectories_storing fs (Path.join dest name)
      split
      all_goals
        next h =>
          rw [h] at hmade
          exact hmade
    next hfile =>
      split
      next => exact .refl fs
      next content _ =>
        have htarget : (Path.join dest name).toList.getLast? ≠ some '\\' := by
          intro hlast
          have hlast := Path.getLast?_of_join (by decide) hlast
          simp [Zip.isDirectoryName, hlast] at hfile
        have hplaced := placeFile_storing fs content htarget
        split
        all_goals
          next h =>
            rw [h] at hplaced
            exact hplaced

theorem extractMembers_storing (dest : PathText) (index : Nat) (done : Extraction)
    (fs : FileSystem) (members : List Zip.Member) :
    Storing fs (extractMembers dest index done fs members).1 := by
  induction members generalizing index done fs with
  | nil => exact .refl fs
  | cons member rest ih =>
    unfold extractMembers
    split
    next => exact .refl fs
    next opened _ =>
      have hstep := extractOpened_storing fs dest done member.name opened
      split
      next mid next h =>
        rw [h] at hstep
        exact hstep.trans (ih _ _ _)
      next h =>
        rw [h] at hstep
        exact hstep

theorem differs_of_absent {target : PathText} {content : ByteArray}
    (h : fs.contentAt? (fs.locate target) = none) : differs fs target content = false := by
  unfold differs FileSystem.digest
  cases hread : fs.readFile target with
  | error e => rfl
  | ok old =>
    obtain ⟨loc, executable, hresolve⟩ := readFile_eq_ok.mp hread
    obtain ⟨rfl, hget⟩ := resolve_found hresolve
    rw [contentAt?_eq_some.mpr ⟨executable, hget⟩] at h
    cases h

end Extraction

/-- What an extraction creates has names that can be stored, and its files have names that do not
end with a backslash, whatever the archive is and however the extraction ends. -/
theorem extractInto_storing (archive dest : PathText) (fs : FileSystem) :
    Storing fs (extractInto archive dest fs).1 := by
  unfold extractInto
  split
  next => exact .refl fs
  next members _ =>
    unfold Extraction.layMembers
    have hmade := createDirectories_storing fs dest
    split
    next h =>
      rw [h] at hmade
      exact hmade
    next h =>
      rw [h] at hmade
      exact hmade.trans (Extraction.extractMembers_storing _ _ _ _ _)

/-- A file whose names can be stored, and whose entry is not taken for a directory. -/
structure WalkedFile.Packable (file : WalkedFile) : Prop where
  nonempty : file.way ≠ []
  names : ∀ name ∈ file.way, Storable name
  ending : ∀ name, file.way.getLast? = some name → name.toList.getLast? ≠ some '\\'

namespace WalkedFile.Packable

variable {file : WalkedFile}

theorem isName (h : file.Packable) : ∀ name ∈ file.way, IsName name :=
  fun name hname => (h.names name hname).isName

theorem segments (h : file.Packable) : Path.segments file.relative = file.way :=
  Path.segments_intercalate h.nonempty fun name hname => (h.isName name hname).no_slash

theorem isEnclosed (h : file.Packable) : Zip.isEnclosed file.relative = true := by
  obtain ⟨hrel, hsteps⟩ := steps_relative h.nonempty h.isName
  rw [Zip.isEnclosed_iff]
  rintro (hnul | habs | ⟨way, hway, hcount⟩)
  · rcases Path.mem_intercalate_slash hnul with hslash | ⟨name, hname, hnul⟩
    · cases hslash
    · exact (h.names name hname).no_nul hnul
  · rw [hrel] at habs
    cases habs
  · rw [hsteps] at hway
    have hup : way.count ".." = 0 := by
      refine List.count_eq_zero.mpr fun hmem => ?_
      exact (h.isName _ (((List.mem_inits _ _).mp hway).subset hmem)).ne_parent rfl
    rw [hup] at hcount
    cases hcount

theorem isFileName (h : file.Packable) : Zip.isDirectoryName file.relative = false := by
  obtain ⟨last, hlast⟩ := Option.isSome_iff_exists.mp (List.getLast?_isSome.mpr h.nonempty)
  have hmem := List.mem_of_getLast? hlast
  have hending := h.ending last hlast
  have hslash := (h.isName last hmem).no_slash
  have hsegment : (Path.segments file.relative).getLast? = some last := by rw [h.segments, hlast]
  obtain ⟨front, hfront⟩ := Path.exists_append_of_getLast?_segments hsegment
  have hchars : last.toList ≠ [] := by simpa using (h.isName last hmem).nonempty
  obtain ⟨c, hc⟩ := Option.isSome_iff_exists.mp (List.getLast?_isSome.mpr hchars)
  have hwhole : file.relative.toList.getLast? = some c := by
    rw [hfront, String.toList_append, List.getLast?_append, hc]
    rfl
  have hc' : c ≠ '/' := by
    rintro rfl
    exact hslash (List.mem_of_getLast? hc)
  rw [hc] at hending
  simpa [Zip.isDirectoryName, hwhole] using And.intro hc' (by simpa using hending)

theorem enters {fs : FileSystem} {dest : PathText} {top : Location} (h : file.Packable)
    (hfind : fs.find? dest = some (top, .directory)) :
    Enters fs (Path.join dest file.relative) top file.way := by
  have hnul : '\x00' ∉ file.relative.toList :=
    fun hnul => (Zip.isEnclosed_iff _).mp h.isEnclosed (Or.inl hnul)
  have henters := Enters.of_join hfind (steps_relative h.nonempty h.isName).1 hnul
  rwa [h.segments] at henters

end WalkedFile.Packable

/-- Some files were laid over a directory in which nothing was: the files below it are among them,
and its directories are those on the ways to them. -/
structure Laid (dest : PathText) (laid : List WalkedFile) (fs : FileSystem) : Prop where
  find : fs.find? dest = some (fs.locate dest, .directory)
  files : ∀ way content, fs.contentAt? (fs.locate dest ++ way) = some content →
    ∃ file ∈ laid, file.way = way
  directories : ∀ way, fs.get? (fs.locate dest ++ way) = some .directory →
    way = [] ∨ ∃ file ∈ laid, way <+: file.way ∧ way ≠ file.way

/-- Of two files of one tree, none stands on the way to the other. -/
def WalkedFile.Apart (a b : WalkedFile) : Prop :=
  ¬a.way <+: b.way ∧ ¬b.way <+: a.way

theorem Location.exists_prefix_of_mem_trail {names : List String} {place loc : Location}
    (hnames : ∀ name ∈ names, IsName name) (h : loc ∈ Location.trail place names) :
    ∃ front, front <+: names ∧ loc = place ++ front := by
  induction names generalizing place with
  | nil =>
    simp only [trail, List.mem_singleton] at h
    exact ⟨[], List.nil_prefix, by simp [h]⟩
  | cons name rest ih =>
    simp only [trail, List.mem_cons] at h
    rcases h with rfl | h
    · exact ⟨[], List.nil_prefix, by simp⟩
    · rw [step, if_neg (hnames name (by simp)).ne_parent] at h
      obtain ⟨front, hfront, rfl⟩ := ih (fun n hn => hnames n (by simp [hn])) h
      exact ⟨name :: front, (List.prefix_cons_inj name).mpr hfront, by simp⟩

namespace Laid

variable {fs after : FileSystem} {dest : PathText} {laid : List WalkedFile} {file : WalkedFile}

/-- Nothing stands where a file that is apart from the laid ones goes, and no file on the way. -/
theorem free (h : Laid dest laid fs) (hpackable : file.Packable)
    (hapart : ∀ other ∈ laid, other.Apart file) :
    (∀ way, way <+: file.way → fs.contentAt? (fs.locate dest ++ way) = none) ∧
      fs.get? (fs.locate dest ++ file.way) = none := by
  have hfree (way : Location) (hway : way <+: file.way) :
      fs.contentAt? (fs.locate dest ++ way) = none := by
    cases hcontent : fs.contentAt? (fs.locate dest ++ way) with
    | none => rfl
    | some content =>
      obtain ⟨other, hother, rfl⟩ := h.files way content hcontent
      exact absurd hway (hapart other hother).1
  refine ⟨hfree, ?_⟩
  cases hget : fs.get? (fs.locate dest ++ file.way) with
  | none => rfl
  | some node =>
    cases node with
    | file content executable =>
      have hnone := hfree file.way (List.prefix_refl _)
      rw [contentAt?_eq_some.mpr ⟨executable, hget⟩] at hnone
      cases hnone
    | directory =>
      rcases h.directories _ hget with hnil | ⟨other, hother, hprefix, -⟩
      · exact absurd hnil hpackable.nonempty
      · exact absurd hprefix (hapart other hother).2

theorem moves_way (hpackable : file.Packable) : Path.moves file.way = file.way :=
  Path.moves_of_names fun name hname => (hpackable.names name hname).isFiller

/-- The parent of a file's path passes through what the destination's path passes through, and then
along the file's way. -/
theorem mem_trail_parent (hpackable : file.Packable) {q : PathText}
    (hparent : Path.parent? (Path.join dest file.relative) = some q) {loc : Location}
    (hloc : loc ∈ fs.trail q) :
    loc ∈ fs.trail dest ∨
      ∃ front, front <+: file.way.dropLast ∧ loc = fs.locate dest ++ front := by
  obtain ⟨hrel, hsteps⟩ := WalkedFile.steps_relative hpackable.nonempty hpackable.isName
  obtain ⟨habs, hlast⟩ := Path.parent?_eq_some hparent
  rw [Path.steps_join hrel, hsteps, List.dropLast_append_of_ne_nil hpackable.nonempty] at hlast
  rw [Path.isAbsolute_join hrel] at habs
  rw [trail, start, habs, hlast, Location.mem_trail_append] at hloc
  refine hloc.imp id fun hbelow => ?_
  exact Location.exists_prefix_of_mem_trail
    (fun name hname => hpackable.isName name (List.dropLast_subset _ hname)) hbelow

/-- The directories on the way of a file are new or were there, and nothing else has changed. -/
structure WayMade (dest : PathText) (file : WalkedFile) (fs mid : FileSystem) : Prop where
  current : mid.current = fs.current
  node : ∀ loc, mid.get? loc = fs.get? loc ∨
    (mid.get? loc = some .directory ∧
      ∃ front, front <+: file.way.dropLast ∧ loc = fs.locate dest ++ front)
  contentAt? : ∀ loc, mid.contentAt? loc = fs.contentAt? loc

/-- The end of the way is still free. -/
theorem WayMade.absent {mid : FileSystem} (h : WayMade dest file fs mid) (hway : file.way ≠ [])
    (habsent : fs.get? (fs.locate dest ++ file.way) = none) :
    mid.get? (fs.locate dest ++ file.way) = none := by
  rcases h.node (fs.locate dest ++ file.way) with hsame | ⟨-, front, hfront, heq⟩
  · rw [hsame, habsent]
  · have hlength := hfront.length_le
    rw [← List.append_cancel_left heq, List.length_dropLast] at hlength
    have hpos := List.length_pos_iff.mpr hway
    omega

theorem WayMade.stays {mid : FileSystem} (h : WayMade dest file fs mid) {d : Location}
    (hdir : fs.get? d = some .directory) : mid.get? d = some .directory := by
  rcases h.node d with hsame | ⟨hmade, -⟩
  · rw [hsame, hdir]
  · exact hmade

/-- The directories on the way of a file that is apart from the laid ones are created. -/
theorem makeWay (h : Laid dest laid fs) (hpackable : file.Packable)
    (hapart : ∀ other ∈ laid, other.Apart file) :
    ∃ above mid, Path.parent? (Path.join dest file.relative) = some above ∧
      fs.createDirectories above = (mid, .ok ()) ∧ WayMade dest file fs mid ∧
      mid.follow (fs.locate dest) file.way.dropLast
        = .ok (.found (fs.locate dest ++ file.way.dropLast) .directory) := by
  obtain ⟨hfree, -⟩ := h.free hpackable hapart
  have hstorable : ∀ name ∈ file.way.dropLast, Storable name :=
    fun name hname => hpackable.names name (List.dropLast_subset _ hname)
  obtain ⟨above, hparent, habove⟩ := (hpackable.enters h.find).parent
    (by rw [moves_way hpackable]; exact hpackable.nonempty)
  rw [Path.above_of_names fun name hname => (hpackable.names name hname).isFiller] at habove
  have hmade := createDirectories_of_names habove hstorable
    fun way hway => hfree way (hway.trans (List.dropLast_prefix _))
  rcases hrun : fs.createDirectories above with ⟨mid, outcome⟩
  rw [hrun] at hmade
  dsimp only at hmade
  subst hmade
  have hgrown := createDirectories_grown hrun
  have hway : WayMade dest file fs mid := by
    refine ⟨hgrown.current, fun loc => ?_, hgrown.contentAt?⟩
    rcases hgrown.node loc with hsame | ⟨hmem, hnone, hdir⟩
    · exact Or.inl hsame
    · -- directories above the destination are there already, so new ones are below it
      rcases mem_trail_parent hpackable hparent hmem with hdest | hbelow
      · rw [(find?_directory_trail h.find).2 loc hdest] at hnone
        cases hnone
      · exact Or.inr ⟨hdir, hbelow⟩
  refine ⟨above, mid, hparent, hrun, hway, ?_⟩
  have hfollow := find?_eq_some.mp (createDirectories_ok hrun habove.nonempty)
  rw [(habove.of_stays hgrown.current fun _ => hway.stays).resolve] at hfollow
  have hend : fs.locate above = fs.locate dest ++ file.way.dropLast := by
    rw [(follow_found hfollow).1,
      Path.moves_of_names fun name hname => (hstorable name hname).isFiller,
      Location.reach_of_names fun name hname => (hstorable name hname).isName]
  rwa [hend] at hfollow

/-- A file that is apart from the laid ones is placed: the directories on its way are created, and
it is put where nothing was. -/
theorem placeFile (h : Laid dest laid fs) (hpackable : file.Packable)
    (hapart : ∀ other ∈ laid, other.Apart file) (content : ByteArray) :
    ∃ mid, WayMade dest file fs mid ∧ mid.get? (fs.locate dest ++ file.way) = none ∧
      Extraction.placeFile fs (Path.join dest file.relative) content
        = (mid.put (fs.locate dest ++ file.way) (.file content false), .ok ()) := by
  obtain ⟨above, mid, hparent, hrun, hway, hfollow⟩ := h.makeWay hpackable hapart
  have habsent := hway.absent hpackable.nonempty (h.free hpackable hapart).2
  refine ⟨mid, hway, habsent, ?_⟩
  have hsplit := List.dropLast_append_getLast hpackable.nonempty
  have henters : Enters mid (Path.join dest file.relative) (fs.locate dest)
      (file.way.dropLast ++ [file.way.getLast hpackable.nonempty]) := by
    rw [hsplit]
    exact (hpackable.enters h.find).of_stays hway.current fun _ => hway.stays
  have hwritten := writeFile_of_names henters (hpackable.names _ (List.getLast_mem _)) hfollow
    (by rw [List.append_assoc, hsplit]; exact habsent) content
  rw [List.append_assoc, hsplit] at hwritten
  simp only [Extraction.placeFile, Extraction.makeRoom, hparent, hrun, hwritten]

/-- One file more: it is written where nothing was, and nothing is reported. -/
theorem step (h : Laid dest laid fs) (hpackable : file.Packable)
    (hapart : ∀ other ∈ laid, other.Apart file) (method : Zip.Method) (done : Extraction) :
    ∃ after, Extraction.extractOpened fs dest done file.relative
        { method, content := .ok file.content }
        = (after, .ok (done.addFile file.relative false file.content)) ∧
      Laid dest (laid ++ [file]) after := by
  obtain ⟨mid, hway, habsent, hplaced⟩ := h.placeFile hpackable hapart file.content
  have hsame : Extraction.differs fs (Path.join dest file.relative) file.content = false := by
    refine Extraction.differs_of_absent ?_
    rw [locate_join_relative hpackable.nonempty hpackable.isName]
    exact (h.free hpackable hapart).1 _ (List.prefix_refl _)
  refine ⟨mid.put (fs.locate dest ++ file.way) (.file file.content false), ?_, ?_⟩
  · simp only [Extraction.extractOpened, hpackable.isEnclosed, hpackable.isFileName, hplaced, hsame,
      Bool.not_true, Bool.false_eq_true, if_false]
  have hlocate : (mid.put (fs.locate dest ++ file.way) (.file file.content false)).locate dest
      = fs.locate dest := locate_congr ((put_current _ _ _).trans hway.current) dest
  have hne : fs.locate dest ++ file.way ≠ [] := by simp [hpackable.nonempty]
  -- what is laid now: the destination is there, files are those laid, directories lead to them
  constructor
  · rw [hlocate]
    refine find?_directory_of_stays ((put_current _ _ _).trans hway.current) (fun d hd => ?_) h.find
    have hmid := hway.stays hd
    rw [get?_put_of_ne mid, hmid]
    rintro rfl
    rw [habsent] at hmid
    cases hmid
  · intro way content hfile
    rw [hlocate, contentAt?_put_file mid hne, hway.contentAt?] at hfile
    split at hfile
    next hsame => exact ⟨file, by simp, (List.append_cancel_left hsame).symm⟩
    next =>
      obtain ⟨other, hother, hsame⟩ := h.files way content hfile
      exact ⟨other, by simp [hother], hsame⟩
  · intro way hdir
    rw [hlocate] at hdir
    have hother : fs.locate dest ++ way ≠ fs.locate dest ++ file.way := by
      intro heq
      rw [heq, get?_put_self mid hne] at hdir
      cases hdir
    rw [get?_put_of_ne mid hother] at hdir
    rcases hway.node (fs.locate dest ++ way) with hsame | ⟨-, front, hfront, heq⟩
    · rw [hsame] at hdir
      rcases h.directories way hdir with htop | ⟨laidFile, hmem, hprefix⟩
      · exact Or.inl htop
      · exact Or.inr ⟨laidFile, by simp [hmem], hprefix⟩
    · refine Or.inr ⟨file, by simp, ?_, fun heq => hother (by rw [heq])⟩
      rw [List.append_cancel_left heq]
      exact hfront.trans (List.dropLast_prefix _)

end Laid

/-- The entry of a file as a reader gives it back. -/
def WalkedFile.member (file : WalkedFile) : Zip.Member :=
  (Recompression.entry file).toMember

/-- The entries of files of one tree are extracted to the last one, and nothing but their number and
their bytes is reported. -/
theorem extractMembers_of_laid {dest : PathText} {laid files : List WalkedFile} {fs : FileSystem}
    (h : Laid dest laid fs) (hpackable : ∀ file ∈ files, file.Packable)
    (hapart : (laid ++ files).Pairwise WalkedFile.Apart) (index : Nat) (done : Extraction) :
    ∃ after, Extraction.extractMembers dest index done fs (files.map WalkedFile.member)
      = (after, .ok { done with
          written := done.written + files.length
          bytes := done.bytes + total (files.map fun file => file.content.size) }) := by
  induction files generalizing laid fs index done with
  | nil => exact ⟨fs, rfl⟩
  | cons file rest ih =>
    have hlaid : ∀ other ∈ laid, other.Apart file := fun other hother =>
      (List.pairwise_append.mp hapart).2.2 other hother file List.mem_cons_self
    obtain ⟨mid, hstep, hmid⟩ := h.step (hpackable file List.mem_cons_self) hlaid
      (Recompression.method (file.way.getLast?.getD "")) done
    rw [List.append_cons] at hapart
    obtain ⟨after, hrun⟩ := ih hmid (fun other hother => hpackable other (by simp [hother])) hapart
      (index + 1) (done.addFile file.relative false file.content)
    refine ⟨after, ?_⟩
    have hname : file.member.name = file.relative := rfl
    have hopened : file.member.opened
        = .ok { method := Recompression.method (file.way.getLast?.getD ""),
                content := .ok file.content } := rfl
    rw [List.map_cons, Extraction.extractMembers, hopened, hname]
    simp only [hstep]
    rw [hrun]
    simp only [Extraction.addFile, List.length_cons, List.map_cons, total, Prod.mk.injEq,
      Except.ok.injEq, Extraction.mk.injEq, Bool.false_eq_true, if_false, and_self, and_true,
      true_and]
    omega

end SdkEvidence
