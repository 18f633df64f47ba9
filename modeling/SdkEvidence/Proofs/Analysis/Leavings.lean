import Mathlib.Data.List.Perm.Lattice
import SdkEvidence.Proofs.Analysis.Container
import SdkEvidence.Proofs.FileSystem.Walk
import SdkEvidence.Proofs.Tree.Places

/-!
# What a run leaves

However a run ends, all is as it was, unless it works on a package or a split container and its work
directory shall be kept. Then that directory is new, with an empty scratch directory if it has one,
and nothing else has changed (`run_leaves`). The invariant of the work is that each step takes place
at one free name of the work directory (`Tidy`); the decompiler is asked to stay at its own
(`Decompiler.StaysInside`), and may otherwise do what it likes there and fail.
-/
namespace SdkEvidence

open FileSystem

/-- A decompiler that changes nothing when it is checked, and nothing outside of its output when it
decompiles, whether it succeeds or not. -/
structure Decompiler.StaysInside (d : Decompiler) : Prop where
  check : ∀ fs, (d.check.runIn fs).2 = fs
  decompile : ∀ {fs after : FileSystem} {package out : PathText} {outcome : Except Failure Unit},
    fs.WellFormed → Vacant fs out → (d.decompile package out).runIn fs = (outcome, after) →
    Within (fs.locate out) fs after

namespace FileSystem

variable {fs after : FileSystem} {dir : Location}

/-- The directory that temporary files and directories are made in. -/
def temporaryDirectory? (fs : FileSystem) : Option Location :=
  fs.directory? (if Path.isAbsolute fs.temporary then fs.temporary
    else Path.join fs.currentPath fs.temporary)

/-- A temporary place is a new name in the directory for temporary files, if there is such a
directory. -/
theorem makeTemporary_in (fs : FileSystem) (lead : String) (node : Node) :
    match fs.temporaryDirectory? with
    | none => ∃ e, fs.makeTemporary fs.temporary lead node = .error e
    | some tmp => ∃ made mid, fs.makeTemporary fs.temporary lead node = .ok (made, mid) ∧
        made.location = tmp ++ [fs.freshName tmp lead] := by
  unfold temporaryDirectory? directory? find? makeTemporary
  dsimp only
  generalize (if Path.isAbsolute fs.temporary then fs.temporary
    else Path.join fs.currentPath fs.temporary) = above
  cases fs.resolve above with
  | error e => exact ⟨e, rfl⟩
  | ok target =>
    cases target with
    | free loc slash => exact ⟨_, rfl⟩
    | found loc node =>
      cases node with
      | file content executable => exact ⟨_, rfl⟩
      | directory => exact ⟨_, _, rfl, rfl⟩

/-- Directories in which the same nodes stand have the same entries, in some order. -/
theorem entries_perm (wf : fs.WellFormed) (wf' : after.WellFormed)
    (h : ∀ name, after.get? (dir ++ [name]) = fs.get? (dir ++ [name])) :
    (after.entries dir).Perm (fs.entries dir) := by
  refine (List.perm_ext_iff_of_nodup (entries_nodup wf' dir) (entries_nodup wf dir)).mpr ?_
  rintro ⟨name, node⟩
  rw [mem_entries wf', mem_entries wf, h]

/-- A node at one new name is one more entry. -/
theorem entries_perm_cons (wf : fs.WellFormed) (wf' : after.WellFormed) {name : String}
    {node : Node} (hnone : fs.get? (dir ++ [name]) = none)
    (hthere : after.get? (dir ++ [name]) = some node)
    (h : ∀ other, other ≠ name → after.get? (dir ++ [other]) = fs.get? (dir ++ [other])) :
    (after.entries dir).Perm ((name, node) :: fs.entries dir) := by
  have hnew : (name, node) ∉ fs.entries dir := by
    rw [mem_entries wf, hnone]
    simp
  refine (List.perm_ext_iff_of_nodup (entries_nodup wf' dir)
    (List.nodup_cons.mpr ⟨hnew, entries_nodup wf dir⟩)).mpr ?_
  rintro ⟨other, there⟩
  rw [mem_entries wf', List.mem_cons, mem_entries wf, Prod.mk.injEq]
  by_cases hother : other = name
  · rw [hother, hthere, hnone]
    simp [eq_comm]
  · simp [h other hother, hother]

end FileSystem

/-- All stands where it stood, and every directory has the entries that it had. -/
structure Untouched (fs after : FileSystem) : Prop where
  get? : ∀ loc, after.get? loc = fs.get? loc
  entries : ∀ dir, (after.entries dir).Perm (fs.entries dir)

theorem untouched_of_get? {fs after : FileSystem} (wf : fs.WellFormed) (wf' : after.WellFormed)
    (h : ∀ loc, after.get? loc = fs.get? loc) : Untouched fs after :=
  ⟨h, fun _ => entries_perm wf wf' fun _ => h _⟩

namespace Analyzer

/-- The work directory during a run: the names that are still to be used are free, and the scratch
directory is empty. -/
structure Tidy (fs : FileSystem) (work : PathText) (names : List String) : Prop where
  wellFormed : fs.WellFormed
  entered : Entered fs work
  free : ∀ name ∈ names, fs.get? (fs.locate work ++ [name]) = none
  scratch : ∀ way node, fs.get? (fs.locate work ++ "scratch" :: way) = some node →
    way = [] ∧ node = .directory

namespace Tidy

variable {fs after : FileSystem} {work : PathText} {names less : List String} {name : String}

/-- A new work directory is tidy. -/
theorem of_made {mid : FileSystem} {made : Temporary} (hmade : Made fs made .directory mid)
    (wf : fs.WellFormed) (names : List String) : Tidy mid made.path names := by
  have hlocate := hmade.anchored.1
  refine ⟨hmade.wellFormed wf, hmade.entered, fun name _ => ?_, fun way node hnode => ?_⟩
  · rw [hlocate]
    exact hmade.fresh wf name []
  · rw [hlocate, hmade.fresh wf] at hnode
    cases hnode

/-- Work at one free name, other than the scratch directory, leaves the directory tidy. -/
theorem of_within (h : Tidy fs work names) (hwithin : Within (fs.locate work ++ [name]) fs after)
    (hname : name ≠ "scratch") (hless : ∀ other ∈ less, other ∈ names ∧ name ≠ other) :
    Tidy after work less := by
  have hapart {other : String} (hother : name ≠ other) (way : Location) :
      ¬fs.locate work ++ [name] <+: fs.locate work ++ other :: way := by
    rw [List.prefix_append_right_inj, List.cons_prefix_cons]
    exact fun hprefix => hother hprefix.1
  refine ⟨hwithin.wellFormed h.wellFormed, h.entered.of_within hwithin,
    fun other hother => ?_, fun way node hnode => ?_⟩
  · obtain ⟨hmem, hne⟩ := hless other hother
    rw [locate_congr hwithin.current, hwithin.outside _ (hapart hne [])]
    exact h.free other hmem
  · rw [locate_congr hwithin.current, hwithin.outside _ (hapart hname way)] at hnode
    exact h.scratch way node hnode

theorem vacant (h : Tidy fs work names) (hname : IsName name) (hmem : name ∈ names) :
    Vacant fs (Path.join work name) :=
  h.entered.vacant hname (h.free name hmem)

/-- Making the scratch directory leaves it empty. -/
theorem createScratch (h : Tidy fs work names) (hmem : "scratch" ∈ names)
    (hless : ∀ other ∈ less, other ∈ names ∧ "scratch" ≠ other) {made? : Except OsError Unit}
    (hmade : fs.createDirectories (Path.join work "scratch") = (after, made?)) :
    Within (fs.locate work) fs after ∧ Tidy after work less := by
  have hname : IsName "scratch" := by decide
  have hvacant := h.vacant hname hmem
  have hgrown := createDirectories_grown hmade
  have hwithin := hvacant.within_of_grown hgrown
  rw [locate_join_name fs work hname] at hwithin
  refine ⟨hwithin.mono (List.prefix_append _ _), hwithin.wellFormed h.wellFormed,
    h.entered.of_within hwithin, fun other hother => ?_, fun way node hnode => ?_⟩
  · obtain ⟨hother, hne⟩ := hless other hother
    rw [locate_congr hwithin.current, hwithin.outside _ ?_]
    · exact h.free other hother
    · rw [List.prefix_append_right_inj, List.cons_prefix_cons]
      exact fun hprefix => hne hprefix.1
  · have habsent : fs.get? (fs.locate work ++ "scratch" :: way) = none := by
      have hbelow := h.wellFormed.get?_below_absent (h.free _ hmem) way
      rwa [List.append_assoc, List.singleton_append] at hbelow
    rw [locate_congr hwithin.current] at hnode
    rcases hgrown.node (fs.locate work ++ "scratch" :: way) with hsame | ⟨hloc, -, hdir⟩
    · rw [hsame, habsent] at hnode
      cases hnode
    · rw [hdir] at hnode
      cases hnode
      -- only the place itself was missing on the way to it
      rcases hvacant.way _ hloc with heq | hthere
      · rw [locate_join_name fs work hname, List.append_cancel_left_eq] at heq
        exact ⟨by simpa using heq, rfl⟩
      · rw [habsent] at hthere
        cases hthere

end Tidy

variable {fs after : FileSystem} {work input : PathText} {names : List String}

/-- Preparing an input in a work directory leaves it tidy, whether it succeeds or not. -/
theorem prepare_tidy {kind : InputKind} {outcome : Except Failure PreparedPackage}
    (h : Tidy fs work runNames) (hrun : (prepare work input kind).runIn fs = (outcome, after)) :
    Within (fs.locate work) fs after ∧ Tidy after work ["decompiled", "raw"] := by
  have hunused : Tidy fs work ["decompiled", "raw"] :=
    ⟨h.wellFormed, h.entered, fun name hname => h.free name (by revert name; decide), h.scratch⟩
  cases kind with
  | package =>
    cases hrun
    exact ⟨.refl _ _, hunused⟩
  | decompiledTree =>
    cases hrun
    exact ⟨.refl _ _, hunused⟩
  | splitContainer =>
    rcases Action.runIn_bind_iff.mp hrun with ⟨e, hmade, -⟩ | ⟨u, mid, hmade, hrest⟩
    · obtain ⟨made?, hmade⟩ := Action.runIn_step_leaves hmade
      exact h.createScratch (by decide) (by decide) hmade
    obtain ⟨made?, hmade⟩ := Action.runIn_step_leaves hmade
    obtain ⟨hmid, htidy⟩ : Within (fs.locate work) fs mid ∧
        Tidy mid work ["merged.apk", "decompiled", "raw"] :=
      h.createScratch (by decide) (by decide) hmade
    have hmerge {merged : FileSystem} {result : Except Failure MergeOutcome}
        (hmerge : (mergeContainer (some (Path.join work "scratch")) input
          (Path.join work "merged.apk")).runIn mid = (result, merged)) :
        Within (fs.locate work) fs merged ∧ Tidy merged work ["decompiled", "raw"] := by
      have hwithin := Merge.mergeContainer_within_name htidy.wellFormed htidy.entered (by decide)
        (htidy.free "merged.apk" (by decide)) hmerge
      have hleft : Tidy merged work ["decompiled", "raw"] :=
        htidy.of_within hwithin (by decide) (by decide)
      rw [locate_congr hmid.current] at hwithin
      exact ⟨hmid.trans (hwithin.mono (List.prefix_append _ _)), hleft⟩
    rcases Action.runIn_bind_iff.mp hrest with ⟨e, hmerged, -⟩ | ⟨result, merged, hmerged, hlast⟩
    · exact hmerge hmerged
    · cases hlast
      exact hmerge hmerged

/-- The rest of a run leaves the work directory tidy, whether it succeeds or not. -/
theorem finish_tidy {a : Analyzer} {mode : Mode} {prepared : PreparedPackage}
    {outcome : Except Failure Report} (hd : a.decompiler.StaysInside)
    (h : Tidy fs work ["decompiled", "raw"])
    (hrun : (a.finish mode input work prepared).runIn fs = (outcome, after)) :
    Within (fs.locate work) fs after ∧ Tidy after work [] := by
  have hdecompiled : IsName "decompiled" := by decide
  have hraw : IsName "raw" := by decide
  rw [runIn_finish] at hrun
  rcases hdecompile : (a.decompiler.decompile prepared.path (Path.join work "decompiled")).runIn fs
    with ⟨done?, mid⟩
  have hmid := hd.decompile h.wellFormed (h.vacant hdecompiled (by decide)) hdecompile
  rw [locate_join_name fs work hdecompiled] at hmid
  have hmid' := hmid.mono (List.prefix_append (fs.locate work) _)
  have htidy : Tidy mid work ["raw"] := h.of_within hmid (by decide) (by decide)
  have hdone : Tidy mid work [] := h.of_within hmid (by decide) (by simp)
  rcases hextract : extractInto prepared.path (Path.join work "raw") mid with ⟨last, extracted⟩
  have hlast := (htidy.vacant hraw (by decide)).extractInto_within hextract
  rw [locate_join_name mid work hraw] at hlast
  have hdone' : Tidy last work [] := htidy.of_within hlast (by decide) (by simp)
  rw [locate_congr hmid.current] at hlast
  have hlast' := hmid'.trans (hlast.mono (List.prefix_append _ _))
  rw [hdecompile] at hrun
  cases done? with
  | error e =>
    cases hrun
    exact ⟨hmid', hdone⟩
  | ok u =>
    dsimp only at hrun
    unfold concluded at hrun
    split at hrun
    · rw [hextract] at hrun
      cases extracted with
      | error e =>
        cases hrun
        exact ⟨hlast', hdone'⟩
      | ok done =>
        cases hrun
        exact ⟨hlast', hdone'⟩
    · cases hrun
      exact ⟨hmid', hdone⟩

/-- The work of a run stays in its directory and leaves it tidy, wherever it ends. -/
theorem runIn_tidy {a : Analyzer} {mode : Mode} {kind : InputKind}
    {outcome : Except Failure Report} (hd : a.decompiler.StaysInside) (h : Tidy fs work runNames)
    (hrun : (a.runIn mode input kind work).runIn fs = (outcome, after)) :
    Within (fs.locate work) fs after ∧ Tidy after work [] := by
  rw [runIn_eq_finish] at hrun
  rcases Action.runIn_bind_iff.mp hrun with ⟨e, hprepare, -⟩ | ⟨prepared, mid, hprepare, hfinish⟩
  · obtain ⟨hwithin, htidy⟩ := prepare_tidy h hprepare
    exact ⟨hwithin, htidy.wellFormed, htidy.entered, by simp, htidy.scratch⟩
  · obtain ⟨hmid, htidy⟩ := prepare_tidy h hprepare
    obtain ⟨hlast, hdone⟩ := finish_tidy hd htidy hfinish
    rw [locate_congr hmid.current] at hlast
    exact ⟨hmid.trans hlast, hdone⟩

/-- A run works in a directory of its own: the input is a package or a split container, and the
decompiler is able to run. -/
def TakesUp (a : Analyzer) (input : PathText) (fs : FileSystem) : Prop :=
  (∃ kind, InputKind.detectIn fs input = .ok kind ∧ kind ≠ .decompiledTree) ∧
    (a.decompiler.check.runIn fs).1 = .ok ()

/-- One directory is new in the directory for temporary files: the work directory of a run. Its
scratch directory is empty, if it has one, and nothing has changed elsewhere. -/
structure Kept (fs after : FileSystem) (tmp : Location) (name : String) : Prop where
  lead : workLead.toList <+: name.toList
  absent : fs.get? (tmp ++ [name]) = none
  directory : after.get? (tmp ++ [name]) = some .directory
  elsewhere : ∀ loc, ¬tmp ++ [name] <+: loc → after.get? loc = fs.get? loc
  entries : (after.entries tmp).Perm ((name, .directory) :: fs.entries tmp)
  scratch : ∀ node, after.get? (tmp ++ [name, "scratch"]) = some node →
    node = .directory ∧ after.entries (tmp ++ [name, "scratch"]) = []

/-- A run that does not work in a directory of its own changes nothing. -/
theorem runIn_leaves_of_not_takesUp {a : Analyzer} {mode : Mode} (hd : a.decompiler.StaysInside)
    (h : ¬a.TakesUp input fs) : ((a.run mode input).runIn fs).2 = fs := by
  cases hkind : InputKind.detectIn fs input with
  | error e =>
    have hdetect : (InputKind.detect input).runIn fs = (.error e, fs) := by
      unfold InputKind.detect
      rw [Action.runIn_bind, Action.runIn_get]
      dsimp only
      rw [hkind, Action.runIn_throw]
    unfold run
    rw [Action.runIn_bind, hdetect]
  | ok kind =>
    by_cases htree : kind = .decompiledTree
    · have hdetect : (InputKind.detect input).runIn fs = (.ok .decompiledTree, fs) := by
        unfold InputKind.detect
        rw [Action.runIn_bind, Action.runIn_get]
        dsimp only
        rw [hkind, htree, Action.runIn_pure]
      unfold run
      rw [Action.runIn_bind, hdetect]
      dsimp only
      rw [Action.runIn_bind, runIn_examine]
      cases fs.isDirectory input <;> rfl
    · rw [runIn_run hkind htree]
      have hstays := hd.check fs
      rcases hcheck : a.decompiler.check.runIn fs with ⟨verdict, checked⟩
      rw [hcheck] at hstays
      cases hstays
      cases verdict with
      | error e => rw [runIn_work_of_check_error hcheck]
      | ok u => exact absurd ⟨⟨kind, hkind, htree⟩, by rw [hcheck]⟩ h

/-- A run that works in a directory of its own makes it beside the other temporary files. -/
theorem runIn_of_takesUp {a : Analyzer} (mode : Mode) (hd : a.decompiler.StaysInside)
    (h : a.TakesUp input fs) :
    ∃ kind, (a.run mode input).runIn fs = (Action.withTemporary fs.temporary workLead
      a.configuration.keepDirectories (a.runIn mode input kind)).runIn fs := by
  obtain ⟨⟨kind, hkind, hne⟩, hok⟩ := h
  refine ⟨kind, ?_⟩
  have hcheck : a.decompiler.check.runIn fs = (.ok (), fs) := Prod.ext hok (hd.check fs)
  rw [runIn_run hkind hne]
  unfold work
  rw [Action.runIn_bind, hcheck]
  dsimp only
  rw [Action.runIn_bind, Action.runIn_ask]

/-- Work in a directory that is removed at the end leaves all as it was. -/
theorem untouched_of_removed {mid last : FileSystem} {made : Temporary} (wf : fs.WellFormed)
    (hmade : Made fs made .directory mid) (hwithin : Within made.location mid last) :
    Untouched fs (last.removeTree made.location) :=
  untouched_of_get? wf ((hwithin.wellFormed (hmade.wellFormed wf)).removeTree _)
    (hmade.get?_removed wf hwithin.outside)

/-- Work in a directory that is kept at the end leaves that directory. -/
theorem kept_of_tidy {mid last : FileSystem} {made : Temporary} {tmp : Location} {name : String}
    (wf : fs.WellFormed) (hmade : Made fs made .directory mid)
    (hlocation : made.location = tmp ++ [name]) (hlead : workLead.toList <+: name.toList)
    (hwithin : Within made.location mid last) (htidy : Tidy last made.path []) :
    Kept fs last tmp name := by
  have hlocate : last.locate made.path = tmp ++ [name] := by
    rw [locate_congr hwithin.current, hmade.anchored.1, hlocation]
  have habsent := hmade.absent
  have hdirectory := htidy.entered.directory
  have helsewhere : ∀ loc, ¬tmp ++ [name] <+: loc → last.get? loc = fs.get? loc := by
    intro loc hloc
    rw [← hlocation] at hloc
    rw [hwithin.outside loc hloc, hmade.get?_of_ne]
    rintro rfl
    exact hloc (List.prefix_refl _)
  have hscratch := htidy.scratch
  rw [hlocation] at habsent
  rw [hlocate] at hdirectory hscratch
  refine ⟨hlead, habsent, hdirectory, helsewhere, ?_, fun node hnode => ?_⟩
  · refine entries_perm_cons wf htidy.wellFormed habsent hdirectory fun other hother => ?_
    refine helsewhere _ fun hprefix => hother ?_
    simpa [eq_comm] using hprefix
  · rw [List.append_cons] at hnode ⊢
    refine ⟨(hscratch [] node hnode).2, List.eq_nil_iff_forall_not_mem.mpr ?_⟩
    rintro ⟨other, there⟩ hentry
    rw [mem_entries htidy.wellFormed, List.append_assoc] at hentry
    exact absurd (hscratch [other] there hentry).1 (by simp)

/-- A run leaves nothing behind, whatever its input is and however it ends: all is as it was, unless
it works in a directory of its own that shall be kept. Then this directory is new beside the other
temporary files, its scratch directory is empty, and nothing has changed elsewhere. -/
theorem run_leaves (a : Analyzer) (mode : Mode) (input : PathText) (fs : FileSystem)
    (wf : fs.WellFormed) (hd : a.decompiler.StaysInside) :
    (a.configuration.keepDirectories = false ∨ ¬a.TakesUp input fs →
      Untouched fs ((a.run mode input).runIn fs).2) ∧
    (a.configuration.keepDirectories = true ∧ a.TakesUp input fs →
      match fs.temporaryDirectory? with
      | none => Untouched fs ((a.run mode input).runIn fs).2
      | some tmp => ∃ name, Kept fs ((a.run mode input).runIn fs).2 tmp name) := by
  have hsame : Untouched fs fs := untouched_of_get? wf wf fun _ => rfl
  by_cases htakes : a.TakesUp input fs
  swap
  · rw [runIn_leaves_of_not_takesUp hd htakes]
    exact ⟨fun _ => hsame, fun h => absurd h.2 htakes⟩
  obtain ⟨kind, hrun⟩ := runIn_of_takesUp mode hd htakes
  rw [hrun, Action.runIn_withTemporary]
  have htemporary := makeTemporary_in fs workLead .directory
  cases htmp : fs.temporaryDirectory? with
  | none =>
    rw [htmp] at htemporary
    obtain ⟨e, hfails⟩ := htemporary
    rw [hfails]
    exact ⟨fun _ => hsame, fun _ => hsame⟩
  | some tmp =>
    rw [htmp] at htemporary
    obtain ⟨made, mid, hmake, hlocation⟩ := htemporary
    rw [hmake]
    dsimp only
    have hmade := makeTemporary_ok (by decide) hmake
    rcases hwork : (a.runIn mode input kind made.path).runIn mid with ⟨outcome, last⟩
    obtain ⟨hwithin, htidy⟩ := runIn_tidy hd (.of_made hmade wf runNames) hwork
    rw [hmade.anchored.1] at hwithin
    have hlead : workLead.toList <+: (fs.freshName tmp workLead).toList := by
      obtain ⟨n, hn⟩ := freshName_eq fs tmp workLead
      rw [hn, String.toList_append]
      exact List.prefix_append _ _
    constructor
    · rintro (hkeep | hnot)
      · rw [hkeep]
        exact untouched_of_removed wf hmade hwithin
      · exact absurd htakes hnot
    · rintro ⟨hkeep, -⟩
      rw [hkeep]
      exact ⟨_, kept_of_tidy wf hmade hlocation hlead hwithin htidy⟩

end Analyzer

/-- A decompiler that makes the directory for its output and is interrupted. -/
def Decompiler.interrupted : Decompiler where
  name := "interrupted"
  check := pure ()
  decompile _ out := do
    Action.createDirectories .ofOsError out
    throw (.decompilation "interrupted")

theorem Decompiler.interrupted_staysInside : Decompiler.interrupted.StaysInside where
  check _ := rfl
  decompile {fs after package out outcome} _ hvacant hrun := by
    have hmade {mid : FileSystem} {verdict : Except Failure Unit}
        (h : (Action.createDirectories .ofOsError out).runIn fs = (verdict, mid)) :
        Within (fs.locate out) fs mid := by
      obtain ⟨made?, hmade⟩ := Action.runIn_step_leaves h
      exact hvacant.within_of_grown (createDirectories_grown hmade)
    rcases Action.runIn_bind_iff.mp hrun with ⟨e, h, -⟩ | ⟨u, mid, h, hthrow⟩
    · exact hmade h
    · cases hthrow
      exact hmade h

namespace Analyzer

/-- A run that keeps its work directory and ends when its decompiler is interrupted. -/
def interruptedRun : Analyzer where
  configuration := { keepDirectories := true }
  decompiler := .interrupted
  moment := ⟨2024, 1, 1, 0, 0, 0, 0, by decide⟩

theorem run_leaves_interrupted :
    Merge.TwoNames.before.WellFormed ∧ interruptedRun.decompiler.StaysInside ∧
      ∃ name, Kept Merge.TwoNames.before
        ((interruptedRun.run .inventory "/in.apks").runIn Merge.TwoNames.before).2 [] name := by
  have hleaves := run_leaves interruptedRun .inventory "/in.apks" Merge.TwoNames.before
    Merge.TwoNames.wellFormed Decompiler.interrupted_staysInside
  refine ⟨Merge.TwoNames.wellFormed, Decompiler.interrupted_staysInside, hleaves.2 ⟨rfl, ?_, rfl⟩⟩
  exact ⟨.splitContainer, rfl, by decide⟩

end Analyzer
end SdkEvidence
