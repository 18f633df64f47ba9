import SdkEvidence.Proofs.FileSystem.Copies
import SdkEvidence.Proofs.FileSystem.Room
import SdkEvidence.Proofs.Package.Assembly
import SdkEvidence.Proofs.Package.RoundTrip

/-!
# Work that can be moved

What an extraction does below its destination depends on the archive and on the tree there, not on
where the destination is (`extractInto_twins`). So a container is put together to the same package
in every scratch directory (`assemble_relocated`, `PutTogether.relocate`).
-/
namespace SdkEvidence

open FileSystem

namespace Extraction

variable {fs₁ fs₂ after₁ mid₁ made₁ made₂ : FileSystem} {target₁ target₂ dest₁ dest₂ : PathText}
  {top₁ top₂ : Location} {left : List String} {content : ByteArray}

theorem makeRoom_alike (h : Alike fs₁ target₁ top₁ fs₂ target₂ top₂ left)
    (hleft : Path.moves left ≠ []) (hrun : makeRoom fs₁ target₁ = (mid₁, .ok ())) :
    ∃ mid₂, makeRoom fs₂ target₂ = (mid₂, .ok ()) ∧
      Alike mid₁ target₁ top₁ mid₂ target₂ top₂ left := by
  obtain ⟨q₁, q₂, hparent₁, hparent₂, habove⟩ := h.parent hleft
  have hmade := habove.createDirectories
  unfold makeRoom at hrun ⊢
  rw [hparent₁] at hrun
  rw [hparent₂]
  dsimp only at hrun ⊢
  rcases hmade₁ : fs₁.createDirectories q₁ with ⟨made₁, outcome₁⟩
  rcases hmade₂ : fs₂.createDirectories q₂ with ⟨made₂, outcome₂⟩
  rw [hmade₁] at hrun hmade
  rw [hmade₂] at hmade
  obtain ⟨houtcome, hsame⟩ := hmade
  have hgrown₁ := createDirectories_grown hmade₁
  have hgrown₂ := createDirectories_grown hmade₂
  cases outcome₁ with
  | error e => cases hrun
  | ok u =>
    cases outcome₂ with
    | error e => cases houtcome
    | ok u =>
      cases hrun
      exact ⟨made₂, rfl, h.of_stays hgrown₁.current (fun _ => hgrown₁.keeps) hgrown₂.current
        (fun _ => hgrown₂.keeps) hsame⟩

/-- A file is placed at the same way below two directories with the same tree. -/
theorem placeFile_alike (h : Alike fs₁ target₁ top₁ fs₂ target₂ top₂ left)
    (hrun : placeFile fs₁ target₁ content = (after₁, .ok ())) :
    ∃ after₂, placeFile fs₂ target₂ content = (after₂, .ok ()) ∧
      SameTree after₁ top₁ after₂ top₂ := by
  have hleft : Path.moves left ≠ [] := by
    -- a file is not written at the top, which is a directory
    intro hleft
    obtain ⟨mid, _, hgrown, -, hnot, -⟩ := placeFile_ok hrun
    have hresolve := h.first.resolve
    rw [follow_fillers_directory h.first.directory hleft] at hresolve
    rw [← (resolve_found hresolve).1] at hnot
    exact hnot (hgrown.keeps h.first.directory)
  unfold placeFile at hrun
  split at hrun
  next => cases hrun
  next mid₁ hroom =>
    obtain ⟨mid₂, hroom₂, hmid⟩ := makeRoom_alike h hleft hroom
    have hwrite := hmid.writeFile content
    split at hrun
    next written hwritten =>
      cases hrun
      rw [hwritten] at hwrite
      unfold placeFile
      rw [hroom₂]
      dsimp only
      generalize mid₂.writeFile target₂ content = written₂ at hwrite ⊢
      cases hwrite with
      | ok hsame => exact ⟨_, rfl, hsame⟩
    next => cases hrun

theorem differs_alike (h : Alike fs₁ target₁ top₁ fs₂ target₂ top₂ left) (content : ByteArray) :
    differs fs₂ target₂ content = differs fs₁ target₁ content := by
  simp only [differs, digest, h.readFile]

/-- An entry is extracted alike into two directories with the same tree. -/
theorem extractOpened_twins (h : Twins fs₁ dest₁ fs₂ dest₂) {done next : Extraction}
    {name : String} {opened : Zip.Opened}
    (hrun : extractOpened fs₁ dest₁ done name opened = (after₁, .ok next)) :
    ∃ after₂, extractOpened fs₂ dest₂ done name opened = (after₂, .ok next) ∧
      SameTree after₁ (fs₁.locate dest₁) after₂ (fs₂.locate dest₂) := by
  rcases extractOpened_ok hrun with ⟨hescapes, rfl, rfl⟩ | ⟨hstays, hdirectory, hmade, rfl⟩ |
    ⟨hstays, hfile, content, hcontent, hplaced, rfl⟩
  · exact ⟨fs₂, extractOpened_of_escapes hescapes fs₂ dest₂ done opened, h.same⟩
  · have henclosed := (Zip.isEnclosed_iff name).mpr hstays
    have hcreate := (h.join henclosed).createDirectories
    rw [hmade] at hcreate
    rcases hmade₂ : fs₂.createDirectories (Path.join dest₂ name) with ⟨made₂, outcome₂⟩
    rw [hmade₂] at hcreate
    obtain ⟨houtcome, hsame⟩ := hcreate
    cases outcome₂ with
    | error e => cases houtcome
    | ok u =>
      refine ⟨made₂, ?_, hsame⟩
      simp [extractOpened, henclosed, hdirectory, hmade₂]
  · have henclosed := (Zip.isEnclosed_iff name).mpr hstays
    obtain ⟨after₂, hplaced₂, hsame⟩ := placeFile_alike (h.join henclosed) hplaced
    refine ⟨after₂, ?_, hsame⟩
    simp [extractOpened, henclosed, hfile, hcontent, hplaced₂,
      differs_alike (h.join henclosed) content]

end Extraction

theorem Anchored.of_isDirectory {fs : FileSystem} {dest : PathText}
    (h : fs.isDirectory dest = true) : Anchored fs dest :=
  .of_createDirectories (createDirectories_of_isDirectory h)

namespace Extraction

variable {fs₁ fs₂ after₁ made₁ made₂ : FileSystem} {dest₁ dest₂ : PathText}

theorem extractMembers_twins (h : Twins fs₁ dest₁ fs₂ dest₂) {members : List Zip.Member}
    {index : Nat} {done result : Extraction}
    (hrun : extractMembers dest₁ index done fs₁ members = (after₁, .ok result)) :
    ∃ after₂, extractMembers dest₂ index done fs₂ members = (after₂, .ok result) ∧
      Twins after₁ dest₁ after₂ dest₂ := by
  induction members generalizing index done fs₁ fs₂ with
  | nil =>
    cases hrun
    exact ⟨fs₂, rfl, h⟩
  | cons member rest ih =>
    unfold extractMembers at hrun ⊢
    split at hrun
    next => cases hrun
    next opened hopened =>
      split at hrun
      next mid₁ next hstep₁ =>
        obtain ⟨mid₂, hstep₂, hsame⟩ := extractOpened_twins h hstep₁
        have hwithin₁ := extractOpened_within (.of_isDirectory h.first) hstep₁
        have hwithin₂ := extractOpened_within (.of_isDirectory h.second) hstep₂
        simp only [hstep₂]
        exact ih (h.of_within hwithin₁ hwithin₂ hsame) hrun
      next => cases hrun

/-- Entries are laid alike over two directories with the same tree, once they are there. -/
theorem layMembers_twins (hmade₁ : fs₁.createDirectories dest₁ = (made₁, .ok ()))
    (hmade₂ : fs₂.createDirectories dest₂ = (made₂, .ok ())) (h : Twins made₁ dest₁ made₂ dest₂)
    {members : List Zip.Member} {result : Extraction}
    (hrun : layMembers dest₁ fs₁ members = (after₁, .ok result)) :
    ∃ after₂, layMembers dest₂ fs₂ members = (after₂, .ok result) ∧
      Twins after₁ dest₁ after₂ dest₂ := by
  unfold layMembers at hrun ⊢
  rw [hmade₁] at hrun
  rw [hmade₂]
  exact extractMembers_twins h hrun

theorem readArchive_eq_ok {fs : FileSystem} {archive : PathText} {members : List Zip.Member} :
    readArchive fs archive = .ok members
      ↔ ∃ content, fs.readFile archive = .ok content ∧ Zip.read content = .ok members := by
  unfold readArchive readFile
  split
  next h => simp [h]
  next h => simp [h]
  next h => simp [h]
  next content _ h => cases hread : Zip.read content <;> simp [h, hread]

end Extraction

/-- The destination is made in both file systems, and the trees below it are the same. -/
def MadeAlike (fs₁ : FileSystem) (dest₁ : PathText) (fs₂ : FileSystem) (dest₂ : PathText) : Prop :=
  ∃ made₁ made₂, fs₁.createDirectories dest₁ = (made₁, .ok ()) ∧
    fs₂.createDirectories dest₂ = (made₂, .ok ()) ∧ Twins made₁ dest₁ made₂ dest₂

namespace MadeAlike

variable {fs₁ fs₂ : FileSystem} {dest₁ dest₂ : PathText}

theorem symm (h : MadeAlike fs₁ dest₁ fs₂ dest₂) : MadeAlike fs₂ dest₂ fs₁ dest₁ := by
  obtain ⟨made₁, made₂, hmade₁, hmade₂, htwins⟩ := h
  exact ⟨made₂, made₁, hmade₂, hmade₁, htwins.symm⟩

theorem of_twins (h : Twins fs₁ dest₁ fs₂ dest₂) : MadeAlike fs₁ dest₁ fs₂ dest₂ :=
  ⟨fs₁, fs₂, createDirectories_of_isDirectory h.first, createDirectories_of_isDirectory h.second, h⟩

theorem of_fresh (wf₁ : fs₁.WellFormed) (wf₂ : fs₂.WellFormed) (h₁ : Fresh fs₁ dest₁)
    (h₂ : Fresh fs₂ dest₂) : MadeAlike fs₁ dest₁ fs₂ dest₂ := by
  have hmade {fs : FileSystem} {dest : PathText} (wf : fs.WellFormed) (h : Fresh fs dest) :
      ∃ made, fs.createDirectories dest = (made, .ok ()) ∧ made.isDirectory dest = true ∧
        ∀ name way, made.get? (made.locate dest ++ name :: way) = none := by
    obtain ⟨hne, made, hmade, habsent⟩ := h
    have hgrown := createDirectories_grown hmade
    have hlocate := locate_congr hgrown.current dest
    refine ⟨made, hmade, ?_, fun name way => ?_⟩
    · rw [isDirectory_eq_true, createDirectories_ok hmade hne, hlocate]
    · rw [hlocate, List.append_cons]
      exact (hgrown.wellFormed wf).get?_below_absent (habsent name) way
  obtain ⟨made₁, hmade₁, hdir₁, habsent₁⟩ := hmade wf₁ h₁
  obtain ⟨made₂, hmade₂, hdir₂, habsent₂⟩ := hmade wf₂ h₂
  refine ⟨made₁, made₂, hmade₁, hmade₂, hdir₁, hdir₂, fun way => ?_⟩
  cases way with
  | nil =>
    have htop {fs : FileSystem} {p : PathText} (h : fs.isDirectory p = true) :
        fs.get? (fs.locate p) = some .directory :=
      (resolve_found (find?_eq_some.mp (isDirectory_eq_true.mp h))).2
    rw [List.append_nil, List.append_nil, htop hdir₁, htop hdir₂]
  | cons name way => rw [habsent₁, habsent₂]

end MadeAlike

/-- An archive is extracted alike to two places that are made alike. -/
theorem extractInto_twins {fs₁ fs₂ after₁ : FileSystem}
    {archive₁ archive₂ dest₁ dest₂ : PathText} {done : Extraction}
    (hread : ∀ content, fs₁.readFile archive₁ = .ok content → fs₂.readFile archive₂ = .ok content)
    (hmade : MadeAlike fs₁ dest₁ fs₂ dest₂)
    (hrun : extractInto archive₁ dest₁ fs₁ = (after₁, .ok done)) :
    ∃ after₂, extractInto archive₂ dest₂ fs₂ = (after₂, .ok done) ∧
      Twins after₁ dest₁ after₂ dest₂ := by
  obtain ⟨made₁, made₂, hmade₁, hmade₂, htwins⟩ := hmade
  unfold extractInto at hrun ⊢
  split at hrun
  next => cases hrun
  next members hmembers =>
    obtain ⟨content, hcontent, hzip⟩ := Extraction.readArchive_eq_ok.mp hmembers
    rw [Extraction.readArchive_eq_ok.mpr ⟨content, hread content hcontent, hzip⟩]
    exact Extraction.layMembers_twins hmade₁ hmade₂ htwins hrun

/-- An extraction works below its destination, if nothing more was made for it. -/
theorem extractInto_within_made {fs made after : FileSystem} {archive dest : PathText}
    {outcome : Except ExtractionError Extraction}
    (hmade : fs.createDirectories dest = (made, .ok ()))
    (hwithin : Within (fs.locate dest) fs made)
    (h : extractInto archive dest fs = (after, outcome)) : Within (fs.locate dest) fs after := by
  refine extractInto_within_of_made (List.prefix_refl _) (fun other made? hother => ?_) h
  cases hmade.symm.trans hother
  exact hwithin

/-- An extraction to a vacant place works there. -/
theorem FileSystem.Vacant.extractInto_within {fs after : FileSystem} {archive dest : PathText}
    {outcome : Except ExtractionError Extraction} (hvacant : Vacant fs dest)
    (h : extractInto archive dest fs = (after, outcome)) : Within (fs.locate dest) fs after :=
  extractInto_within_of_made (List.prefix_refl _)
    (fun _ _ hmade => hvacant.within_of_grown (createDirectories_grown hmade)) h

theorem FileSystem.fresh_join_name {fs : FileSystem} {p : PathText} {name : String}
    (wf : fs.WellFormed) (hdir : fs.isDirectory p = true) (hname : Storable name)
    (habsent : fs.get? (fs.locate p ++ [name]) = none) : Fresh fs (Path.join p name) := by
  refine ⟨Path.join_ne_empty hname.isName.nonempty, _,
    createDirectories_join_name hdir hname habsent, fun other => ?_⟩
  rw [locate_join_name fs p hname.isName, get?_put_of_ne _ (by simp)]
  exact wf.get?_below_absent habsent [other]

/-- An extraction to a new name in a directory works below that name. -/
theorem extractInto_within_name {fs after : FileSystem} {archive p : PathText} {name : String}
    {outcome : Except ExtractionError Extraction} (hdir : fs.isDirectory p = true)
    (hname : Storable name) (habsent : fs.get? (fs.locate p ++ [name]) = none)
    (h : extractInto archive (Path.join p name) fs = (after, outcome)) :
    Within (fs.locate p ++ [name]) fs after := by
  rw [← locate_join_name fs p hname.isName]
  exact ((entered_of_isDirectory hdir).vacant hname.isName habsent).extractInto_within h

/-- An archive is extracted alike to a free name in two directories. -/
theorem extractInto_name_twins {fs₁ fs₂ after₁ : FileSystem}
    {archive₁ archive₂ work₁ work₂ : PathText} {name : String} {names : List String}
    {done : Extraction} (wf₁ : fs₁.WellFormed) (wf₂ : fs₂.WellFormed) (h₁ : Room fs₁ work₁ names)
    (h₂ : Room fs₂ work₂ names) (hname : Storable name) (hmem : name ∈ names)
    (hread : ∀ content,
      fs₁.readFile archive₁ = .ok content → fs₂.readFile archive₂ = .ok content)
    (hrun : extractInto archive₁ (Path.join work₁ name) fs₁ = (after₁, .ok done)) :
    ∃ after₂, extractInto archive₂ (Path.join work₂ name) fs₂ = (after₂, .ok done) ∧
      Twins after₁ (Path.join work₁ name) after₂ (Path.join work₂ name) ∧
      Within (fs₁.locate work₁ ++ [name]) fs₁ after₁ ∧
      Within (fs₂.locate work₂ ++ [name]) fs₂ after₂ := by
  have hfree₁ := h₁.absent name hmem
  have hfree₂ := h₂.absent name hmem
  obtain ⟨after₂, hrun₂, htwins⟩ := extractInto_twins hread
    (.of_fresh wf₁ wf₂ (fresh_join_name wf₁ h₁.isDirectory hname hfree₁)
      (fresh_join_name wf₂ h₂.isDirectory hname hfree₂)) hrun
  exact ⟨after₂, hrun₂, htwins, extractInto_within_name h₁.isDirectory hname hfree₁ hrun,
    extractInto_within_name h₂.isDirectory hname hfree₂ hrun₂⟩

namespace Merge

variable {fs₁ fs₂ after₁ : FileSystem} {unpacked₁ unpacked₂ staging₁ staging₂ : PathText}

/-- Sub-packages of one container are laid alike over the same staging directory. -/
theorem overlay_twins {files : List WalkedFile} {result : List MergeCollision × List String}
    (hunpacked : Twins fs₁ unpacked₁ fs₂ unpacked₂) (hstaging : Twins fs₁ staging₁ fs₂ staging₂)
    (hapart₁ : ∀ way, ¬fs₁.locate staging₁ <+: fs₁.locate unpacked₁ ++ way)
    (hapart₂ : ∀ way, ¬fs₂.locate staging₂ <+: fs₂.locate unpacked₂ ++ way)
    (hfiles : ∀ file ∈ files, Zip.isEnclosed file.relative = true)
    (hrun : (overlay unpacked₁ staging₁ files).runIn fs₁ = (.ok result, after₁)) :
    ∃ after₂, (overlay unpacked₂ staging₂ files).runIn fs₂ = (.ok result, after₂) ∧
      Twins after₁ staging₁ after₂ staging₂ ∧ Within (fs₁.locate staging₁) fs₁ after₁ ∧
      Within (fs₂.locate staging₂) fs₂ after₂ := by
  induction files generalizing fs₁ fs₂ result with
  | nil =>
    cases hrun
    exact ⟨fs₂, rfl, hstaging, Within.refl _ _, Within.refl _ _⟩
  | cons file rest ih =>
    rw [overlay, Action.runIn_bind_ok] at hrun
    obtain ⟨done, mid₁, hstep₁, hrun⟩ := hrun
    rw [Action.runIn_bind_ok] at hrun
    obtain ⟨more, last₁, hrest, hrun⟩ := hrun
    cases hrun
    rw [Action.runIn_step_ok] at hstep₁
    have henclosed := hfiles file (by simp)
    obtain ⟨mid₂, hstep₂, hmid⟩ := extractInto_twins
      (fun content hcontent => (hunpacked.readFile henclosed).trans hcontent)
      (.of_twins hstaging) hstep₁
    have hwithin₁ := extractInto_within_made (createDirectories_of_isDirectory hstaging.first)
      (Within.refl _ _) hstep₁
    have hwithin₂ := extractInto_within_made (createDirectories_of_isDirectory hstaging.second)
      (Within.refl _ _) hstep₂
    -- both steps stay in the staging directories, so the packages to come are still alike
    obtain ⟨after₂, hrun₂, hafter, hrest₁, hrest₂⟩ :=
      ih (hunpacked.of_apart hwithin₁ hwithin₂ hapart₁ hapart₂) hmid
        (by simpa only [locate_congr hwithin₁.current] using hapart₁)
        (by simpa only [locate_congr hwithin₂.current] using hapart₂)
        (fun other hother => hfiles other (by simp [hother])) hrest
    rw [locate_congr hwithin₁.current] at hrest₁
    rw [locate_congr hwithin₂.current] at hrest₂
    refine ⟨after₂, ?_, hafter, hwithin₁.trans hrest₁, hwithin₂.trans hrest₂⟩
    rw [overlay, Action.runIn_bind_ok]
    refine ⟨done, mid₂, Action.runIn_step_ok.mpr hstep₂, ?_⟩
    rw [Action.runIn_bind_ok]
    exact ⟨more, after₂, hrun₂, rfl⟩

variable {scratch₁ scratch₂ container₁ container₂ : PathText}

/-- The names that a merge uses in its scratch directory. -/
def workNames : List String := ["container", "staging", "merged.apk"]

theorem storable_workNames : ∀ name ∈ workNames, Storable name := by
  decide

/-- The staging directory is packed beside it. -/
theorem compressDirectory_staging {fs : FileSystem} {scratch : PathText} (wf : fs.WellFormed)
    (hroom : Room fs scratch ["merged.apk"])
    (hstaging : fs.isDirectory (stagingIn scratch) = true) :
    ∃ packed, compressDirectory (stagingIn scratch) (assembledIn scratch) fs
        = (packed, .ok (fs.walkPath (stagingIn scratch)).length) ∧
      packed.readFile (assembledIn scratch)
        = .ok (Zip.write ((fs.walkPath (stagingIn scratch)).map Recompression.entry)) := by
  have hwrite := writeFile_join_name hroom.isDirectory (storable_workNames "merged.apk" (by decide))
    (hroom.absent _ (by simp)) .empty
  have hout : ¬fs.locate (stagingIn scratch) <+: fs.locate (assembledIn scratch) := by
    rw [locate_stagingIn, locate_assembledIn, List.prefix_append_right_inj]
    simp
  obtain ⟨packed, hpack, hread, -⟩ := compressDirectory_of_writable wf hstaging hout hwrite
  exact ⟨packed, hpack, hread⟩

theorem staging_apart (fs : FileSystem) (scratch : PathText) (way : Location) :
    ¬fs.locate (stagingIn scratch) <+: fs.locate (unpackedIn scratch) ++ way := by
  rw [locate_stagingIn, locate_unpackedIn, List.append_assoc, List.prefix_append_right_inj]
  simp

/-- The walked files of an unpacked container have names that lead to them. -/
theorem isEnclosed_of_unpack {fs after : FileSystem} {scratch container : PathText}
    {outcome : Except ExtractionError Extraction} (wf : fs.WellFormed)
    (hroom : Room fs scratch workNames)
    (h : extractInto container (unpackedIn scratch) fs = (after, outcome)) :
    ∀ file ∈ after.walkPath (unpackedIn scratch), Zip.isEnclosed file.relative = true := by
  have hfresh := fresh_join_name wf hroom.isDirectory
    (storable_workNames "container" (by decide)) (hroom.absent _ (by decide))
  have hpackable := packable_of_extractInto wf hfresh container
  rw [show extractInto container (Path.join scratch "container") fs = (after, outcome) from h]
    at hpackable
  exact fun file hfile => (hpackable file hfile).isEnclosed

/-- A container that holds the same is put together alike in another scratch directory. -/
theorem assemble_relocated {packed₁ : FileSystem} {assembly : Assembly} (wf₁ : fs₁.WellFormed)
    (wf₂ : fs₂.WellFormed) (h₁ : Room fs₁ scratch₁ workNames) (h₂ : Room fs₂ scratch₂ workNames)
    (hread : ∀ content,
      fs₁.readFile container₁ = .ok content → fs₂.readFile container₂ = .ok content)
    (hrun : (assemble scratch₁ container₁).runIn fs₁ = (.ok assembly, packed₁)) :
    ∃ packed₂, (assemble scratch₂ container₂).runIn fs₂ = (.ok assembly, packed₂) ∧
      packed₂.readFile (assembledIn scratch₂) = packed₁.readFile (assembledIn scratch₁) := by
  obtain ⟨opened, open₁, base, based₁, rejected, laid₁, hopen₁, hplan, hbase₁, hlay₁, hpack₁,
    hrejected⟩ := runIn_assemble_ok.mp hrun
  -- the container is unpacked
  obtain ⟨open₂, hopen₂, (hunpacked : Twins open₁ (unpackedIn scratch₁) open₂
    (unpackedIn scratch₂)), hwithin₁, hwithin₂⟩ := extractInto_name_twins wf₁ wf₂ h₁ h₂
      (storable_workNames "container" (by decide)) (by decide) hread hopen₁
  have hroom₁ : Room open₁ scratch₁ ["staging", "merged.apk"] := h₁.of_within hwithin₁ (by decide)
  have hroom₂ : Room open₂ scratch₂ ["staging", "merged.apk"] := h₂.of_within hwithin₂ (by decide)
  have henclosed := isEnclosed_of_unpack wf₁ h₁ hopen₁
  have hopenWf₁ := hwithin₁.wellFormed wf₁
  have hopenWf₂ := hwithin₂.wellFormed wf₂
  have hfiles := SplitPlan.mem_files hplan
  -- the base is laid into the staging directory
  obtain ⟨based₂, hbase₂, (hstaged : Twins based₁ (stagingIn scratch₁) based₂
    (stagingIn scratch₂)), hwithin₁', hwithin₂'⟩ := extractInto_name_twins hopenWf₁ hopenWf₂ hroom₁
      hroom₂ (storable_workNames "staging" (by decide)) (by decide)
      (fun content hcontent => (hunpacked.readFile
        (henclosed _ (hfiles assembly.plan.base (by simp)))).trans hcontent) hbase₁
  have hroom₁' : Room based₁ scratch₁ ["merged.apk"] := hroom₁.of_within hwithin₁' (by decide)
  have hroom₂' : Room based₂ scratch₂ ["merged.apk"] := hroom₂.of_within hwithin₂' (by decide)
  rw [← locate_stagingIn] at hwithin₁' hwithin₂'
  have hunpacked' := hunpacked.of_apart hwithin₁' hwithin₂' (staging_apart open₁ scratch₁)
    (staging_apart open₂ scratch₂)
  -- the other sub-packages are laid over it
  obtain ⟨laid₂, hlay₂, hlaid, hover₁, hover₂⟩ := overlay_twins hunpacked' hstaged
    (staging_apart based₁ scratch₁) (staging_apart based₂ scratch₂)
    (fun file hfile => henclosed file (hfiles file (List.mem_cons_of_mem _ hfile))) hlay₁
  have hlaidWf₁ := hover₁.wellFormed (hwithin₁'.wellFormed hopenWf₁)
  have hlaidWf₂ := hover₂.wellFormed (hwithin₂'.wellFormed hopenWf₂)
  rw [locate_stagingIn] at hover₁ hover₂
  -- the staging directory is packed
  obtain ⟨packed₁', hpacked₁, hread₁⟩ := compressDirectory_staging hlaidWf₁
    (hroom₁'.of_within hover₁ (by decide)) hlaid.first
  obtain ⟨packed₂, hpacked₂, hread₂⟩ := compressDirectory_staging hlaidWf₂
    (hroom₂'.of_within hover₂ (by decide)) hlaid.second
  obtain ⟨rfl, hcount⟩ := Prod.mk.inj (hpack₁.symm.trans hpacked₁)
  have hwalk := hlaid.walkPath hlaidWf₁ hlaidWf₂
  rw [← hunpacked.walkPath hopenWf₁ hopenWf₂] at hplan
  refine ⟨packed₂, runIn_assemble_ok.mpr ⟨opened, open₂, base, based₂, rejected, laid₂, hopen₂,
    hplan, hbase₂, hlay₂, ?_, hrejected⟩, ?_⟩
  · rw [hpacked₂, hwalk, hcount]
  · rw [hread₁, hread₂, hwalk]

/-- A container of the given content is put together to a package in a scratch directory. -/
structure PutTogether (fs : FileSystem) (scratch container : PathText)
    (content package : ByteArray) : Prop where
  wellFormed : fs.WellFormed
  room : Room fs scratch workNames
  read : fs.readFile container = .ok content
  assembles : ∃ assembly packed, (assemble scratch container).runIn fs = (.ok assembly, packed) ∧
    packed.readFile (assembledIn scratch) = .ok package

/-- A container is put together to the same package in every scratch directory. -/
theorem PutTogether.relocate {content package : ByteArray}
    (h : PutTogether fs₁ scratch₁ container₁ content package) (wf : fs₂.WellFormed)
    (hroom : Room fs₂ scratch₂ workNames) (hread : fs₂.readFile container₂ = .ok content) :
    PutTogether fs₂ scratch₂ container₂ content package := by
  obtain ⟨assembly, packed₁, hrun₁, hpackage⟩ := h.assembles
  obtain ⟨packed₂, hrun₂, hsame⟩ := assemble_relocated h.wellFormed wf h.room hroom
    (fun content' hcontent => by rw [hread, ← h.read, hcontent]) hrun₁
  exact ⟨wf, hroom, hread, assembly, packed₂, hrun₂, hsame.trans hpackage⟩

end Merge
end SdkEvidence
