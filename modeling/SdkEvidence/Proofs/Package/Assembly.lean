import Mathlib.Data.List.Forall2
import SdkEvidence.Package.Merge
import SdkEvidence.Proofs.Action
import SdkEvidence.Proofs.Package.Recompression

/-!
# Putting a package together

The package that a merge puts together in its scratch directory holds what the sub-packages write,
one over the other (`assemble_ok`). All the work is done inside of the scratch directory, however it
ends (`assemble_inside`).
-/
namespace SdkEvidence

open FileSystem

namespace SplitPlan

theorem mem_of_withRole {role : SplitRole} {files : List WalkedFile} {file : WalkedFile}
    (h : file ∈ withRole role files) : file ∈ files :=
  (List.mem_filter.mp h).1

/-- The plan's base is one of the packages that are no configuration splits; the others of these
come last. -/
theorem ofFiles?_eq_some {files : List WalkedFile} {plan : SplitPlan}
    (h : ofFiles? files = some plan) :
    (withRole .base files)[basePosition (withRole .base files)]? = some plan.base ∧
      plan.overlays = withRole .architecture files ++ withRole .configuration files ++
        (withRole .base files).eraseIdx (basePosition (withRole .base files)) := by
  unfold ofFiles? at h
  dsimp only at h
  rw [Option.map_eq_some_iff] at h
  obtain ⟨base, hbase, rfl⟩ := h
  exact ⟨hbase, by simp [overlays]⟩

theorem mem_files {files : List WalkedFile} {plan : SplitPlan} (h : ofFiles? files = some plan) :
    ∀ file ∈ plan.base :: plan.overlays, file ∈ files := by
  obtain ⟨hbase, hoverlays⟩ := ofFiles?_eq_some h
  intro file hfile
  rw [hoverlays] at hfile
  simp only [List.mem_cons, List.mem_append] at hfile
  rcases hfile with rfl | (hfile | hfile) | hfile
  · exact mem_of_withRole (List.mem_of_getElem? hbase)
  · exact mem_of_withRole hfile
  · exact mem_of_withRole hfile
  · exact mem_of_withRole (List.mem_of_mem_eraseIdx hfile)

end SplitPlan

namespace Merge

/-- However the action ends, it works inside of the directory that a path leads to, if that is
there. -/
def Inside {α : Type} (scratch : PathText) (action : Action α) : Prop :=
  ∀ fs outcome after, Anchored fs scratch → action.runIn fs = (outcome, after) →
    Within (fs.locate scratch) fs after

namespace Inside

variable {α β : Type} {scratch : PathText}

theorem pure (a : α) : Inside scratch (Pure.pure a : Action α) := by
  intro fs outcome after _ h
  cases h
  exact Within.refl _ _

theorem throw (e : Failure) : Inside scratch (MonadExcept.throw e : Action α) := by
  intro fs outcome after _ h
  cases h
  exact Within.refl _ _

theorem ask (question : FileSystem → α) : Inside scratch (Action.ask question) := by
  intro fs outcome after _ h
  cases h
  exact Within.refl _ _

theorem bind {action : Action α} {next : α → Action β} (hfirst : Inside scratch action)
    (hnext : ∀ a, Inside scratch (next a)) : Inside scratch (action >>= next) := by
  intro fs outcome after hanchored h
  rcases Action.runIn_bind_iff.mp h with ⟨e, hrun, -⟩ | ⟨a, mid, hrun, hrest⟩
  · exact hfirst fs _ after hanchored hrun
  · have hmid := hfirst fs _ mid hanchored hrun
    have hafter := hnext a mid _ after (hanchored.of_within hmid) hrest
    rw [locate_congr hmid.current] at hafter
    exact hmid.trans hafter

end Inside

theorem inside_extractInto {scratch archive : PathText} {name : String}
    {explain : ExtractionError → Failure} (henclosed : Zip.isEnclosed name = true) :
    Inside scratch (Action.step explain (extractInto archive (Path.join scratch name))) := by
  intro fs outcome after hanchored h
  obtain ⟨result, hrun⟩ := Action.runIn_step_leaves h
  exact extractInto_within hanchored henclosed hrun

theorem inside_compressDirectory {scratch source : PathText} {name : String}
    {explain : OsError → Failure} (henclosed : Zip.isEnclosed name = true) :
    Inside scratch (Action.step explain (compressDirectory source (Path.join scratch name))) := by
  intro fs outcome after _ h
  obtain ⟨result, hrun⟩ := Action.runIn_step_leaves h
  exact compressDirectory_within henclosed hrun

/-- Sub-packages are read as the entries of the archives that they are. -/
def Read (file : WalkedFile) (members : List Zip.Member) : Prop :=
  Zip.read file.content = .ok members

variable {unpacked scratch container : PathText} {fs after : FileSystem}

theorem runIn_assemble (scratch container : PathText) (fs : FileSystem) :
    (assemble scratch container).runIn fs
      = match extractInto container (unpackedIn scratch) fs with
        | (after, .error e) => (.error (.containerExtraction e.message), after)
        | (mid, .ok opened) =>
            match SplitPlan.ofFiles? (mid.walkPath (unpackedIn scratch)) with
            | none => (.error .noBasePackage, mid)
            | some plan =>
                match extractInto (Path.join (unpackedIn scratch) plan.base.relative)
                  (stagingIn scratch) mid with
                | (after, .error e) => (.error (.baseExtraction e.message), after)
                | (based, .ok base) =>
                    match (overlay (unpackedIn scratch) (stagingIn scratch) plan.overlays).runIn
                      based with
                    | (.error e, after) => (.error e, after)
                    | (.ok (collisions, rejected), laid) =>
                        match compressDirectory (stagingIn scratch) (assembledIn scratch) laid with
                        | (after, .error e) =>
                            (.error (.repackaging
                              (Recompression.failureText (assembledIn scratch) e)), after)
                        | (after, .ok entriesWritten) =>
                            (.ok
                              { plan
                                entriesWritten
                                collisions
                                rejected := opened.rejected ++ base.rejected ++ rejected },
                              after) := by
  unfold assemble
  dsimp only
  rw [Action.runIn_bind, Action.runIn_step]
  rcases extractInto container (unpackedIn scratch) fs with ⟨mid, opened⟩
  cases opened with
  | error e => rfl
  | ok opened =>
    dsimp only
    rw [Action.runIn_bind, Action.runIn_ask]
    dsimp only
    cases SplitPlan.ofFiles? (mid.walkPath (unpackedIn scratch)) with
    | none => rfl
    | some plan =>
      dsimp only
      rw [Action.runIn_bind, Action.runIn_step]
      rcases extractInto (Path.join (unpackedIn scratch) plan.base.relative) (stagingIn scratch) mid
        with ⟨based, base⟩
      cases base with
      | error e => rfl
      | ok base =>
        dsimp only
        rw [Action.runIn_bind]
        rcases (overlay (unpackedIn scratch) (stagingIn scratch) plan.overlays).runIn based
          with ⟨result, laid⟩
        cases result with
        | error e => rfl
        | ok result =>
          obtain ⟨collisions, rejected⟩ := result
          dsimp only
          rw [Action.runIn_bind, Action.runIn_step]
          rcases compressDirectory (stagingIn scratch) (assembledIn scratch) laid
            with ⟨last, written⟩
          cases written <;> rfl

/-- A package is put together exactly when each step succeeds. -/
theorem runIn_assemble_ok {assembly : Assembly} :
    (assemble scratch container).runIn fs = (.ok assembly, after)
      ↔ ∃ opened unpacked base based rejected laid,
          extractInto container (unpackedIn scratch) fs = (unpacked, .ok opened) ∧
          SplitPlan.ofFiles? (unpacked.walkPath (unpackedIn scratch)) = some assembly.plan ∧
          extractInto (Path.join (unpackedIn scratch) assembly.plan.base.relative)
            (stagingIn scratch) unpacked = (based, .ok base) ∧
          (overlay (unpackedIn scratch) (stagingIn scratch) assembly.plan.overlays).runIn based
            = (.ok (assembly.collisions, rejected), laid) ∧
          compressDirectory (stagingIn scratch) (assembledIn scratch) laid
            = (after, .ok assembly.entriesWritten) ∧
          assembly.rejected = opened.rejected ++ base.rejected ++ rejected := by
  rw [runIn_assemble]
  constructor
  · intro h
    split at h
    next => cases h
    next unpacked opened hopened =>
      split at h
      next => cases h
      next plan hplan =>
        split at h
        next => cases h
        next based base hbase =>
          split at h
          next => cases h
          next collisions rejected laid hoverlay =>
            split at h
            next => cases h
            next last written hcompress =>
              cases h
              exact ⟨opened, unpacked, base, based, rejected, laid, hopened, hplan, hbase,
                hoverlay, hcompress, rfl⟩
  · rintro ⟨opened, unpacked, base, based, rejected, laid, hopened, hplan, hbase, hoverlay,
      hcompress, hrejected⟩
    obtain ⟨plan, written, collisions, names⟩ := assembly
    rw [hopened]
    dsimp only at hrejected ⊢
    rw [hplan]
    dsimp only
    rw [hbase]
    dsimp only
    rw [hoverlay]
    dsimp only
    rw [hcompress, hrejected]

/-- A sub-package of the unpacked container stands where its text leads, outside of the staging
directory. -/
structure Stands (unpacked staging : PathText) (fs : FileSystem) (file : WalkedFile) : Prop where
  content : fs.contentAt? (fs.locate (Path.join unpacked file.relative)) = some file.content
  apart : ¬fs.locate staging <+: fs.locate (Path.join unpacked file.relative)

theorem Stands.of_confined {staging : PathText} {file : WalkedFile}
    (h : Stands unpacked staging fs file) (hconfined : Confined staging fs after) :
    Stands unpacked staging after file := by
  obtain ⟨hcontent, hapart⟩ := h
  constructor
  · rw [locate_congr hconfined.current, hconfined.contentAt? hapart, hcontent]
  · rwa [locate_congr hconfined.current, locate_congr hconfined.current]

theorem overlay_inside (unpacked : PathText) {name : String}
    (henclosed : Zip.isEnclosed name = true) (files : List WalkedFile) :
    Inside scratch (overlay unpacked (Path.join scratch name) files) := by
  induction files with
  | nil => exact Inside.pure _
  | cons file rest ih =>
    refine Inside.bind (inside_extractInto henclosed) fun done => ?_
    exact Inside.bind ih fun _ => Inside.pure _

theorem assemble_inside (scratch container : PathText) :
    Inside scratch (assemble scratch container) := by
  refine Inside.bind (inside_extractInto (by decide)) fun opened => ?_
  refine Inside.bind (Inside.ask _) fun files => ?_
  dsimp only
  split
  · exact Inside.throw _
  · refine Inside.bind (inside_extractInto (by decide)) fun base => ?_
    refine Inside.bind (overlay_inside _ (by decide) _) fun _ => ?_
    refine Inside.bind (inside_compressDirectory (by decide)) fun _ => ?_
    exact Inside.pure _

/-- Sub-packages that are laid over a directory leave the last write to each way. -/
theorem overlay_layers {staging : PathText} {files : List WalkedFile}
    {result : List MergeCollision × List String}
    (hfiles : ∀ file ∈ files, Stands unpacked staging fs file)
    (h : (overlay unpacked staging files).runIn fs = (.ok result, after)) :
    ∃ layers, List.Forall₂ Read files layers ∧
      ∀ way, after.contentAt? (fs.locate staging ++ way)
        = (Zip.lastWrite (layers.flatMap Zip.writes) way).or
            (fs.contentAt? (fs.locate staging ++ way)) := by
  induction files generalizing fs result with
  | nil =>
    cases h
    exact ⟨[], List.Forall₂.nil, by simp⟩
  | cons file rest ih =>
    rw [overlay, Action.runIn_bind_ok] at h
    obtain ⟨done, mid, hstep, h⟩ := h
    rw [Action.runIn_bind_ok] at h
    obtain ⟨more, last, hrest, h⟩ := h
    rw [Action.runIn_step_ok] at hstep
    cases h
    have hstands := hfiles file (by simp)
    have hconfined := confined_extractInto (Path.join unpacked file.relative) staging fs
    rw [hstep] at hconfined
    obtain ⟨content, members, hcontent, hread, hlayer⟩ := extractInto_layer hstep
    rw [hstands.content] at hcontent
    cases hcontent
    obtain ⟨layers, hlayers, htree⟩ :=
      ih (fun file hfile => (hfiles file (by simp [hfile])).of_confined hconfined) hrest
    refine ⟨members :: layers, List.Forall₂.cons hread hlayers, fun way => ?_⟩
    rw [← locate_congr hconfined.current, htree, locate_congr hconfined.current, hlayer,
      List.flatMap_cons, Zip.lastWrite_append, Option.or_assoc]

theorem locate_unpackedIn (fs : FileSystem) (scratch : PathText) :
    fs.locate (unpackedIn scratch) = fs.locate scratch ++ ["container"] :=
  locate_join_name fs scratch ⟨by decide, by decide, by decide, by decide⟩

theorem locate_stagingIn (fs : FileSystem) (scratch : PathText) :
    fs.locate (stagingIn scratch) = fs.locate scratch ++ ["staging"] :=
  locate_join_name fs scratch ⟨by decide, by decide, by decide, by decide⟩

theorem locate_assembledIn (fs : FileSystem) (scratch : PathText) :
    fs.locate (assembledIn scratch) = fs.locate scratch ++ ["merged.apk"] :=
  locate_join_name fs scratch ⟨by decide, by decide, by decide, by decide⟩

/-- A container is unpacked into a directory that was not there: the walk over it meets what the
container's entries write, and the files met stand where their texts lead. -/
theorem unpack_ok {opened : Extraction} (wf : fs.WellFormed) (hanchored : Anchored fs scratch)
    (hfresh : ∀ name way, fs.get? (fs.locate scratch ++ name :: way) = none)
    (h : extractInto container (unpackedIn scratch) fs = (after, .ok opened)) :
    ∃ package members, fs.contentAt? (fs.locate container) = some package ∧
      Zip.read package = .ok members ∧
      IsTreeOf (Zip.writes members) (after.walkPath (unpackedIn scratch)) ∧
      ∀ file ∈ after.walkPath (unpackedIn scratch),
        Stands (unpackedIn scratch) (stagingIn scratch) after file := by
  have hwithin : Within (fs.locate scratch) fs after :=
    extractInto_within hanchored (by decide) h
  have wf' := hwithin.wellFormed wf
  have hfind : after.find? (unpackedIn scratch)
      = some (fs.locate (unpackedIn scratch), .directory) :=
    extractInto_find? (Path.join_ne_empty (by decide)) h
  obtain ⟨package, members, hpackage, hread, hlayer⟩ := extractInto_layer h
  have hcontent (way : Location) :
      after.contentAt? (fs.locate (unpackedIn scratch) ++ way)
        = Zip.lastWrite (Zip.writes members) way := by
    have habsent : fs.contentAt? (fs.locate (unpackedIn scratch) ++ way) = none := by
      rw [locate_unpackedIn, List.append_assoc]
      exact contentAt?_of_absent (hfresh _ _)
    rw [hlayer, habsent, Option.or_none]
  have htree := walkPath_isTreeOf wf' hfind hcontent
  refine ⟨package, members, hpackage, hread, htree, fun file hfile => ?_⟩
  have hstands : after.contentAt? (fs.locate (unpackedIn scratch) ++ file.way)
      = some file.content := by
    rw [hcontent]
    exact (htree.mem_iff file.way file.content).mp hfile
  obtain ⟨hne, hnames⟩ := htree.named file hfile
  have hlocate : after.locate (Path.join (unpackedIn scratch) file.relative)
      = fs.locate (unpackedIn scratch) ++ file.way := by
    rw [locate_join_relative hne hnames, locate_congr hwithin.current]
  constructor
  · rw [hlocate, hstands]
  · rw [hlocate, locate_congr hwithin.current, locate_unpackedIn, locate_stagingIn,
      List.append_assoc, List.prefix_append_right_inj]
    simp

/-- The base package and the overlays are laid into a directory that was not there, in the order of
the plan: it holds the last write to each way. -/
theorem lay_ok {plan : SplitPlan} {based : FileSystem} {base : Extraction}
    {result : List MergeCollision × List String} (hanchored : Anchored fs scratch)
    (hstands : ∀ file ∈ plan.base :: plan.overlays,
      Stands (unpackedIn scratch) (stagingIn scratch) fs file)
    (hempty : ∀ way, fs.contentAt? (fs.locate (stagingIn scratch) ++ way) = none)
    (hbase : extractInto (Path.join (unpackedIn scratch) plan.base.relative) (stagingIn scratch) fs
      = (based, .ok base))
    (hoverlay : (overlay (unpackedIn scratch) (stagingIn scratch) plan.overlays).runIn based
      = (.ok result, after)) :
    ∃ layers, List.Forall₂ Read (plan.base :: plan.overlays) layers ∧
      Within (fs.locate scratch) fs after ∧
      after.find? (stagingIn scratch) = some (fs.locate (stagingIn scratch), .directory) ∧
      ∀ way, after.contentAt? (fs.locate (stagingIn scratch) ++ way)
        = Zip.lastWrite (layers.flatMap Zip.writes) way := by
  have hbased := extractInto_within hanchored (by decide) hbase
  have hlaid := overlay_inside (unpackedIn scratch) (by decide) plan.overlays based _ after
    (hanchored.of_within hbased) hoverlay
  have hconfined := confined_extractInto (Path.join (unpackedIn scratch) plan.base.relative)
    (stagingIn scratch) fs
  rw [hbase] at hconfined
  obtain ⟨content, first, hcontent, hfirst, hlayer⟩ := extractInto_layer hbase
  rw [(hstands _ (by simp)).content] at hcontent
  cases hcontent
  obtain ⟨layers, hlayers, hoverlaid⟩ :=
    overlay_layers (fun file hfile => (hstands file (by simp [hfile])).of_confined hconfined)
      hoverlay
  rw [locate_congr hbased.current] at hlaid hoverlaid
  refine ⟨first :: layers, List.Forall₂.cons hfirst hlayers, hbased.trans hlaid, ?_,
    fun way => ?_⟩
  · exact find?_directory_of_stays hlaid.current hlaid.directories
      (extractInto_find? (Path.join_ne_empty (by decide)) hbase)
  · rw [hoverlaid, hlayer, hempty, Option.or_none, List.flatMap_cons, Zip.lastWrite_append]

/-- The package that is put together: the container's packages are planned, read in the order of
the plan, and laid one over the other; the archive holds the tree that they leave. -/
theorem assemble_ok {assembly : Assembly} (wf : fs.WellFormed) (hanchored : Anchored fs scratch)
    (hfresh : ∀ name way, fs.get? (fs.locate scratch ++ name :: way) = none)
    (h : (assemble scratch container).runIn fs = (.ok assembly, after)) :
    ∃ package members files layers tree,
      fs.contentAt? (fs.locate container) = some package ∧ Zip.read package = .ok members ∧
      IsTreeOf (Zip.writes members) files ∧ SplitPlan.ofFiles? files = some assembly.plan ∧
      List.Forall₂ Read (assembly.plan.base :: assembly.plan.overlays) layers ∧
      IsTreeOf (layers.flatMap Zip.writes) tree ∧ assembly.entriesWritten = tree.length ∧
      after.readFile (assembledIn scratch)
        = .ok (Zip.write (tree.map Recompression.entry)) := by
  obtain ⟨opened, unpacked, base, based, rejected, laid, hopened, hplan, hbase, hoverlay, hcompress,
    -⟩ := runIn_assemble_ok.mp h
  obtain ⟨package, members, hpackage, hread, hfiles, hstands⟩ :=
    unpack_ok wf hanchored hfresh hopened
  have hunpacked := extractInto_within hanchored (by decide) hopened
  have hempty (way : Location) :
      unpacked.contentAt? (unpacked.locate (stagingIn scratch) ++ way) = none := by
    have hcontainer := confined_extractInto container (unpackedIn scratch) fs
    rw [hopened] at hcontainer
    rw [locate_congr hunpacked.current,
      hcontainer.contentAt? (by simp [locate_unpackedIn, locate_stagingIn]), locate_stagingIn,
      List.append_assoc]
    exact contentAt?_of_absent (hfresh _ _)
  obtain ⟨layers, hlayers, hlaid, hfind, hstaged⟩ := lay_ok (hanchored.of_within hunpacked)
    (fun file hfile => hstands file (SplitPlan.mem_files hplan file hfile)) hempty hbase hoverlay
  have hout : ¬unpacked.locate (stagingIn scratch) <+: laid.locate (assembledIn scratch) := by
    rw [locate_congr hlaid.current, locate_stagingIn, locate_assembledIn]
    simp
  obtain ⟨tree, htree, hcount, hpacked⟩ := compressDirectory_ok
    (hlaid.wellFormed (hunpacked.wellFormed wf)) hfind hout hstaged hcompress
  exact ⟨package, members, _, layers, tree, hpackage, hread, hfiles, hplan, hlayers, htree, hcount,
    hpacked⟩

end Merge
end SdkEvidence
