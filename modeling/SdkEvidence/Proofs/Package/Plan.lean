import SdkEvidence.Proofs.Package.MergedPackage
import SdkEvidence.Proofs.Text.LetterCase

/-!
# The merge plan

A plan sorts the packages of a container: it loses none and repeats none
(`SplitPlan.sorts_of_plan`), and there is none only without a base
(`SplitPlan.ofFiles?_eq_none_iff`). A package with the usual name of a base is one, since a role
does not depend on the case of ASCII letters (`SplitName.role?_of_usualBase`). A merge tells the
plan and the names that its packages were not allowed to write (`mergeContainer_plan`).
-/
namespace SdkEvidence

open FileSystem

namespace Text

theorem fold_toLower (c : Char) : fold c.toLower = fold c :=
  toLower_forall (P := fun small c => fold small = fold c) (by decide) (fun _ => rfl) c

theorem SameLetters.folded_eq {text other : List Char} (h : SameLetters text other) :
    folded text = folded other := by
  have hsmall (text : List Char) : folded (text.map Char.toLower) = folded text := by
    rw [folded, List.map_map]
    exact List.map_congr_left fun c _ => fold_toLower c
  rw [← hsmall text, ← hsmall other, h]

end Text

namespace SplitName

/-- The role of a package does not depend on the case of ASCII letters in its name. -/
theorem role?_of_sameLetters {name other : String}
    (h : Text.SameLetters name.toList other.toList) : role? name = role? other := by
  unfold role? isPackage isConfiguration hasArchitecture
  rw [h.lower_eq, h.folded_eq]

theorem role?_of_usualBase {file : WalkedFile} (h : SplitPlan.isUsualBase file = true) :
    role? file.name = some .base := by
  have hletters : Text.SameLetters file.name.toList "base.apk".toList := by
    rw [SplitPlan.isUsualBase, beq_iff_eq] at h
    rw [Text.SameLetters, h]
    decide
  rw [role?_of_sameLetters hletters]
  decide +kernel

end SplitName

namespace SplitPlan

/-- A plan has all packages among the files, each once: the first file in walk order with the usual
name of a base, or else the first base, then the architecture splits, the configuration splits, and
the remaining bases, each in walk order. -/
structure Sorts (plan : SplitPlan) (files : List WalkedFile) : Prop where
  base : some plan.base = (files.find? isUsualBase).or
    (files.find? fun file => SplitName.role? file.name == some .base)
  architecture : plan.architecture = withRole .architecture files
  others : plan.others
    = withRole .configuration files ++ (withRole .base files).filter (· ≠ plan.base)
  all : (plan.base :: (plan.architecture ++ plan.others)).Perm
    (files.filter fun file => (SplitName.role? file.name).isSome)
  distinct : (plan.base :: (plan.architecture ++ plan.others)).Nodup

variable {files : List WalkedFile} {plan : SplitPlan}

theorem mem_withRole {role : SplitRole} {file : WalkedFile} :
    file ∈ withRole role files ↔ file ∈ files ∧ SplitName.role? file.name = some role := by
  rw [withRole, List.mem_filter, beq_iff_eq]

theorem getElem?_basePosition (bases : List WalkedFile) :
    bases[basePosition bases]? = (bases.find? isUsualBase).or bases.head? := by
  unfold basePosition
  split
  next hany =>
    have hfound : (bases.find? isUsualBase).isSome = true := by
      rw [List.find?_isSome, ← List.any_eq_true]
      exact hany
    rw [← List.find?_eq_getElem?_findIdx, Option.or_of_isSome hfound]
  next hnone =>
    have habsent : bases.find? isUsualBase = none := by
      rw [List.find?_eq_none]
      exact fun file hfile husual => hnone (List.any_eq_true.mpr ⟨file, hfile, husual⟩)
    rw [habsent, Option.none_or, List.head?_eq_getElem?]

/-- The base that is planned, if there is any, is chosen among all files by its name. -/
theorem base_of_ofFiles? (files : List WalkedFile) :
    (ofFiles? files).map SplitPlan.base = (files.find? isUsualBase).or
      (files.find? fun file => SplitName.role? file.name == some .base) := by
  have husual : (withRole .base files).find? isUsualBase = files.find? isUsualBase := by
    rw [withRole, List.find?_filter]
    congr 1
    funext file
    rw [Bool.eq_iff_iff, decide_eq_true_eq, beq_iff_eq]
    exact and_iff_right_of_imp SplitName.role?_of_usualBase
  have hfirst : (withRole .base files).head?
      = files.find? fun file => SplitName.role? file.name == some .base :=
    List.head?_filter
  rw [← husual, ← hfirst, ← getElem?_basePosition, ofFiles?, Option.map_map]
  exact Option.map_id'

theorem ofFiles?_eq_none_iff :
    ofFiles? files = none ↔ ∀ file ∈ files, SplitName.role? file.name ≠ some .base := by
  rw [← Option.map_eq_none_iff (f := SplitPlan.base), base_of_ofFiles?, Option.or_eq_none_iff,
    List.find?_eq_none, List.find?_eq_none]
  simp only [beq_iff_eq]
  exact and_iff_right_of_imp fun hnone file hfile husual =>
    hnone file hfile (SplitName.role?_of_usualBase husual)

theorem architecture_of_plan (h : ofFiles? files = some plan) :
    plan.architecture = withRole .architecture files := by
  unfold ofFiles? at h
  dsimp only at h
  rw [Option.map_eq_some_iff] at h
  obtain ⟨base, -, rfl⟩ := h
  rfl

theorem others_of_plan (hnodup : files.Nodup) (h : ofFiles? files = some plan) :
    plan.others
      = withRole .configuration files ++ (withRole .base files).filter (· ≠ plan.base) := by
  have hoverlays := overlays_eq hnodup h
  rw [overlays, architecture_of_plan h] at hoverlays
  exact List.append_cancel_left hoverlays

theorem ne_of_withRole {role other : SplitRole} (hne : role ≠ other) {file met : WalkedFile}
    (hfile : file ∈ withRole role files) (hmet : met ∈ withRole other files) : file ≠ met := by
  rintro rfl
  rw [mem_withRole] at hfile hmet
  exact hne (Option.some.inj (hfile.2.symm.trans hmet.2))

/-- Each role is planned apart from the others, so no package is planned twice. -/
theorem distinct_of_plan (hnodup : files.Nodup) (h : ofFiles? files = some plan) :
    (plan.base :: (plan.architecture ++ plan.others)).Nodup := by
  obtain ⟨-, hrole⟩ := mem_withRole.mp (List.mem_of_getElem? (ofFiles?_eq_some h).1)
  have hfiltered (role : SplitRole) : (withRole role files).Nodup := hnodup.filter _
  rw [architecture_of_plan h, others_of_plan hnodup h, List.nodup_cons]
  refine ⟨by simp [mem_withRole, hrole], List.nodup_append.mpr ⟨hfiltered _, ?_, ?_⟩⟩
  · refine List.nodup_append.mpr
      ⟨hfiltered _, (hfiltered _).filter _, fun file hfile met hmet => ?_⟩
    exact ne_of_withRole (by decide) hfile (List.mem_filter.mp hmet).1
  · intro file hfile met hmet
    rcases List.mem_append.mp hmet with hmet | hmet
    · exact ne_of_withRole (by decide) hfile hmet
    · exact ne_of_withRole (by decide) hfile (List.mem_filter.mp hmet).1

/-- What is planned are the packages among the files. -/
theorem mem_plan_iff (hnodup : files.Nodup) (h : ofFiles? files = some plan) (file : WalkedFile) :
    file ∈ plan.base :: (plan.architecture ++ plan.others)
      ↔ file ∈ files ∧ (SplitName.role? file.name).isSome = true := by
  obtain ⟨hbase, hrole⟩ := mem_withRole.mp (List.mem_of_getElem? (ofFiles?_eq_some h).1)
  simp only [architecture_of_plan h, others_of_plan hnodup h, List.mem_cons, List.mem_append,
    List.mem_filter, mem_withRole, decide_eq_true_eq]
  constructor
  · rintro (rfl | ⟨hmem, hsome⟩ | ⟨hmem, hsome⟩ | ⟨⟨hmem, hsome⟩, -⟩)
    · exact ⟨hbase, Option.isSome_of_eq_some hrole⟩
    all_goals exact ⟨hmem, Option.isSome_of_eq_some hsome⟩
  · rintro ⟨hmem, hsome⟩
    obtain ⟨role, hrole⟩ := Option.isSome_iff_exists.mp hsome
    cases role with
    | base =>
      by_cases hchosen : file = plan.base
      · exact Or.inl hchosen
      · exact Or.inr (Or.inr (Or.inr ⟨⟨hmem, hrole⟩, hchosen⟩))
    | architecture => exact Or.inr (Or.inl ⟨hmem, hrole⟩)
    | configuration => exact Or.inr (Or.inr (Or.inl ⟨hmem, hrole⟩))

theorem sorts_of_plan (hnodup : files.Nodup) (h : ofFiles? files = some plan) :
    plan.Sorts files := by
  have hdistinct := distinct_of_plan hnodup h
  refine ⟨?_, architecture_of_plan h, others_of_plan hnodup h, ?_, hdistinct⟩
  · rw [← base_of_ofFiles?, h]
    rfl
  · refine (List.perm_ext_iff_of_nodup hdistinct (hnodup.filter _)).mpr fun file => ?_
    rw [mem_plan_iff hnodup h, List.mem_filter]

/-- The usual name comes before other names, at any depth and in any case. -/
example :
    (ofFiles? [{ way := ["a.apk"], content := .empty },
      { way := ["in", "BASE.apk"], content := .empty }]).map (·.base.way)
      = some ["in", "BASE.apk"] := by
  decide +kernel

end SplitPlan
theorem FileSystem.walkPath_nodup {fs : FileSystem} (wf : fs.WellFormed) (p : PathText) :
    (fs.walkPath p).Nodup := by
  unfold walkPath
  split
  next loc _ _ => exact nodup_of_increasing (walk_increasing wf loc)
  next => exact List.nodup_nil

/-- The names of entries that are not laid, since they leave the destination. -/
def Zip.escapingNames (members : List Zip.Member) : List String :=
  (members.map Zip.Member.name).filter fun name => Zip.Escapes name

theorem extractInto_rejected {archive dest : PathText} {fs after : FileSystem} {done : Extraction}
    {content : ByteArray} {members : List Zip.Member}
    (hcontent : fs.contentAt? (fs.locate archive) = some content)
    (hread : Zip.read content = .ok members)
    (h : extractInto archive dest fs = (after, .ok done)) :
    done.rejected = Zip.escapingNames members := by
  unfold extractInto at h
  split at h
  next => cases h
  next found hfound =>
    obtain ⟨content', hcontent', hread'⟩ := Extraction.readArchive_ok hfound
    rw [hcontent] at hcontent'
    cases hcontent'
    rw [hread] at hread'
    cases hread'
    exact Extraction.layMembers_rejected h

namespace Merge

variable {unpacked staging scratch container : PathText} {fs after : FileSystem}

/-- Sub-packages tell the names that they were not allowed to write, one package after the other. -/
theorem overlay_rejected {files : List WalkedFile} {layers : List (List Zip.Member)}
    {result : List MergeCollision × List String}
    (hfiles : ∀ file ∈ files, Stands unpacked staging fs file)
    (hlayers : List.Forall₂ Read files layers)
    (h : (overlay unpacked staging files).runIn fs = (.ok result, after)) :
    result.2 = layers.flatMap Zip.escapingNames := by
  induction hlayers generalizing fs result with
  | nil =>
    cases h
    rfl
  | @cons file members rest more hread _ ih =>
    rw [overlay, Action.runIn_bind_ok] at h
    obtain ⟨done, mid, hstep, h⟩ := h
    rw [Action.runIn_bind_ok] at h
    obtain ⟨later, last, hrest, h⟩ := h
    rw [Action.runIn_step_ok] at hstep
    cases h
    have hconfined := confined_extractInto (Path.join unpacked file.relative) staging fs
    rw [hstep] at hconfined
    rw [List.flatMap_cons, extractInto_rejected (hfiles file (by simp)).content hread hstep,
      ih (fun file hfile => (hfiles file (by simp [hfile])).of_confined hconfined) hrest]

/-- What an assembly has read, and the names that were rejected: those of the container, then those
of each package in merge order. -/
theorem assemble_read {assembly : Assembly} (wf : fs.WellFormed) (hanchored : Anchored fs scratch)
    (hfresh : ∀ name way, fs.get? (fs.locate scratch ++ name :: way) = none)
    (h : (assemble scratch container).runIn fs = (.ok assembly, after)) :
    ∃ package members files layers,
      fs.contentAt? (fs.locate container) = some package ∧ Zip.read package = .ok members ∧
      IsTreeOf (Zip.writes members) files ∧ SplitPlan.ofFiles? files = some assembly.plan ∧
      List.Forall₂ Read (assembly.plan.base :: assembly.plan.overlays) layers ∧
      assembly.rejected = (members :: layers).flatMap Zip.escapingNames := by
  obtain ⟨package, members, files, layers, -, hpackage, hmembers, hfiles, hplan, hlayers, -⟩ :=
    assemble_ok wf hanchored hfresh h
  obtain ⟨opened, unpacked, base, based, rejected, laid, hopened, hplanned, hbase, hoverlay, -,
    hrejected⟩ := runIn_assemble_ok.mp h
  obtain ⟨-, -, -, -, -, hstands⟩ := unpack_ok wf hanchored hfresh hopened
  have hstand (file : WalkedFile) (hfile : file ∈ assembly.plan.base :: assembly.plan.overlays) :=
    hstands file (SplitPlan.mem_files hplanned file hfile)
  refine ⟨package, members, files, layers, hpackage, hmembers, hfiles, hplan, hlayers, ?_⟩
  cases hlayers with
  | @cons _ first _ more hfirst hmore =>
    have hconfined := confined_extractInto
      (Path.join (unpackedIn scratch) assembly.plan.base.relative) (stagingIn scratch) unpacked
    rw [hbase] at hconfined
    have hlater : rejected = more.flatMap Zip.escapingNames := overlay_rejected
      (fun file hfile => (hstand file (by simp [hfile])).of_confined hconfined) hmore hoverlay
    rw [hrejected, extractInto_rejected hpackage hmembers hopened,
      extractInto_rejected (hstand _ (by simp)).content hfirst hbase, hlater, List.flatMap_cons,
      List.flatMap_cons, List.append_assoc]

/-- The container that is read beside a directory made for a merge is the one that was there. -/
theorem readFile_of_made {made : Temporary} {mid : FileSystem} {content : ByteArray}
    (hmade : Made fs made .directory mid) (hfound : fs.isFile container = true)
    (hcontent : mid.contentAt? (mid.locate container) = some content) :
    fs.readFile container = .ok content := by
  obtain ⟨found, hread, hsame⟩ := readFile_of_isFile hfound
  have hne : fs.locate container ≠ made.location := by
    intro heq
    rw [heq, contentAt?_of_absent hmade.absent] at hsame
    cases hsame
  rw [locate_congr hmade.current, contentAt?_congr (hmade.get?_of_ne hne), hsame] at hcontent
  cases hcontent
  exact hread

/-- A merge fails for want of a base exactly when it could unpack the container and no file of it is
one by its name. -/
theorem noBase_iff {scratch : Option PathText} {output : PathText} (wf : fs.WellFormed) :
    ((mergeContainer scratch container output).runIn fs).1 = .error .noBasePackage
      ↔ fs.isFile container = true ∧ ∃ made mid opened unpacked,
          Scratched scratch fs made mid ∧
          extractInto container (unpackedIn made.path) mid = (unpacked, .ok opened) ∧
          ∀ file ∈ unpacked.walkPath (unpackedIn made.path),
            SplitName.role? file.name ≠ some .base := by
  rw [failure_iff wf]
  constructor
  · intro h
    generalize hfailure : Failure.noBasePackage = failure at h
    cases h with
    | missing => cases hfailure
    | scratch => cases hfailure
    | @assembly made mid _ found scratched fails =>
      cases fails with
      | @noBase unpacked planned =>
        obtain ⟨opened, hopened, hplan⟩ := planned
        exact ⟨found, made, mid, opened, unpacked, scratched, hopened,
          SplitPlan.ofFiles?_eq_none_iff.mp hplan⟩
      | container | base | overlay | recompression => cases hfailure
    | publishing => cases hfailure
  · rintro ⟨found, made, mid, opened, unpacked, scratched, hopened, hnone⟩
    exact .assembly found scratched
      (.noBase ⟨opened, hopened, SplitPlan.ofFiles?_eq_none_iff.mpr hnone⟩)

end Merge

/-- The plan of a merge. A tree of files has a plan exactly if one of them is a base by its name,
and the plan sorts its packages; a merge that finds none fails for that. A merge that succeeds tells
the names of the packages in the order of the plan, and the names that were rejected: those of the
container and then those of each package in merge order. -/
theorem mergeContainer_plan (fs : FileSystem) (wf : fs.WellFormed) :
    (∀ root,
      (SplitPlan.ofFiles? (fs.walkPath root) = none
        ↔ ∀ file ∈ fs.walkPath root, SplitName.role? file.name ≠ some .base) ∧
      ∀ plan, SplitPlan.ofFiles? (fs.walkPath root) = some plan →
        plan.Sorts (fs.walkPath root)) ∧
    ∀ scratch container output,
      (((mergeContainer scratch container output).runIn fs).1 = .error .noBasePackage
        ↔ fs.isFile container = true ∧ ∃ made mid opened unpacked,
            Merge.Scratched scratch fs made mid ∧
            extractInto container (Merge.unpackedIn made.path) mid = (unpacked, .ok opened) ∧
            ∀ file ∈ unpacked.walkPath (Merge.unpackedIn made.path),
              SplitName.role? file.name ≠ some .base) ∧
      ∀ outcome after, (mergeContainer scratch container output).runIn fs = (.ok outcome, after) →
        ∃ package members files plan layers,
          fs.readFile container = .ok package ∧ Zip.read package = .ok members ∧
          IsTreeOf (Zip.writes members) files ∧ SplitPlan.ofFiles? files = some plan ∧
          plan.Sorts files ∧
          List.Forall₂ Merge.Read (plan.base :: (plan.architecture ++ plan.others)) layers ∧
          outcome.base = plan.base.name ∧
          outcome.architectureSplits = plan.architecture.map WalkedFile.name ∧
          outcome.otherSplits = plan.others.map WalkedFile.name ∧
          outcome.rejectedEntries = (members :: layers).flatMap Zip.escapingNames := by
  refine ⟨fun root => ⟨SplitPlan.ofFiles?_eq_none_iff, fun plan hplan => ?_⟩,
    fun scratch container output => ⟨Merge.noBase_iff wf, fun outcome after h => ?_⟩⟩
  · exact SplitPlan.sorts_of_plan (walkPath_nodup wf root) hplan
  · obtain ⟨hfound, made, mid, assembly, bytes, packed, -, hmade, hassembled, rfl, -⟩ :=
      Merge.mergeContainer_ok wf h
    obtain ⟨hlocate, hanchored⟩ := hmade.anchored
    have hfresh := hmade.fresh wf
    rw [← hlocate] at hfresh
    obtain ⟨package, members, files, layers, hpackage, hmembers, hfiles, hplan, hlayers,
      hrejected⟩ := Merge.assemble_read (hmade.wellFormed wf) hanchored hfresh hassembled.run
    exact ⟨package, members, files, assembly.plan, layers,
      Merge.readFile_of_made hmade hfound hpackage, hmembers, hfiles, hplan,
      SplitPlan.sorts_of_plan hfiles.nodup hplan, hlayers, rfl, rfl, rfl, hrejected⟩

/-- Of two packages with other names, the first is the base and the second is laid over it. -/
theorem mergeContainer_plan_two_names :
    Merge.TwoNames.before.WellFormed ∧
    ∃ package members files plan layers, Merge.TwoNames.before.readFile "/in.apks" = .ok package ∧
      Zip.read package = .ok members ∧ IsTreeOf (Zip.writes members) files ∧
      SplitPlan.Sorts plan files ∧ plan.base.name = "a.apk" ∧ plan.architecture = [] ∧
      plan.others.map WalkedFile.name = ["b.apk"] ∧
      (members :: layers).flatMap Zip.escapingNames = [] := by
  obtain ⟨-, hmerge⟩ := mergeContainer_plan Merge.TwoNames.before Merge.TwoNames.wellFormed
  obtain ⟨-, hsuccess⟩ := hmerge none "/in.apks" "/out.apk"
  obtain ⟨package, members, files, plan, layers, hpackage, hmembers, hfiles, -, hsorts, -, hbase,
    harchitecture, hothers, hrejected⟩ := hsuccess _ _ Merge.TwoNames.merges
  exact ⟨Merge.TwoNames.wellFormed, package, members, files, plan, layers, hpackage, hmembers,
    hfiles, hsorts, hbase.symm, List.map_eq_nil_iff.mp harchitecture.symm, hothers.symm,
    hrejected.symm⟩

end SdkEvidence
