import SdkEvidence.Proofs.Package.Atomicity

/-!
# What a merged package holds

A merge that succeeds leaves an archive with one entry for each path that some sub-package writes,
with the content of the last write in merge order, and the entries are in the order of the bytes of
their paths (`mergeContainer_last_write`).
-/
namespace SdkEvidence

open FileSystem

namespace Merge

/-- The tree that the packages of a container leave when they are laid one over the other in merge
order: the base, the architecture splits, the configuration splits and the remaining packages,
each in walk order. -/
def Composes (container : ByteArray) (tree : List WalkedFile) : Prop :=
  ∃ members files plan layers,
    Zip.read container = .ok members ∧ IsTreeOf (Zip.writes members) files ∧
    SplitPlan.ofFiles? files = some plan ∧
    List.Forall₂ Read
      (plan.base :: (SplitPlan.withRole .architecture files ++
        (SplitPlan.withRole .configuration files ++
          (SplitPlan.withRole .base files).filter (· ≠ plan.base)))) layers ∧
    IsTreeOf (layers.flatMap Zip.writes) tree

/-- An entry of an archive has the name and the content of a file. -/
def IsMemberFor (file : WalkedFile) (member : Zip.Member) : Prop :=
  member.name = file.relative ∧
    ∃ method, member.opened = .ok { method, content := .ok file.content }

end Merge

/-- Different files of a tree have different ways, so none is listed twice. -/
theorem IsTreeOf.nodup {log : List (Location × ByteArray)} {files : List WalkedFile}
    (h : IsTreeOf log files) : files.Nodup :=
  nodup_of_increasing h.increasing

/-- The packages that are no configuration splits, in merge order, are all but the base. -/
theorem SplitPlan.overlays_eq {files : List WalkedFile} {plan : SplitPlan} (hnodup : files.Nodup)
    (h : SplitPlan.ofFiles? files = some plan) :
    plan.overlays = SplitPlan.withRole .architecture files ++
      (SplitPlan.withRole .configuration files ++
        (SplitPlan.withRole .base files).filter (· ≠ plan.base)) := by
  obtain ⟨hbase, hoverlays⟩ := ofFiles?_eq_some h
  obtain ⟨hposition, hget⟩ := List.getElem?_eq_some_iff.mp hbase
  have hbases : (withRole .base files).Nodup := hnodup.filter _
  have hothers : (withRole .base files).eraseIdx (basePosition (withRole .base files))
      = (withRole .base files).filter (· ≠ plan.base) := by
    rw [← hbases.erase_getElem _ hposition, hget, hbases.erase_eq_filter]
    congr 1
    funext file
    simp [bne, beq_eq_decide]
  rw [hoverlays, List.append_assoc, hothers]

theorem FileSystem.readFile_of_isFile {fs : FileSystem} {p : PathText} (h : fs.isFile p = true) :
    ∃ content, fs.readFile p = .ok content ∧ fs.contentAt? (fs.locate p) = some content := by
  unfold isFile at h
  split at h
  next loc content executable hfind =>
    have hresolve := find?_eq_some.mp hfind
    obtain ⟨rfl, hget⟩ := resolve_found hresolve
    exact ⟨content, readFile_eq_ok.mpr ⟨_, _, hresolve⟩, contentAt?_eq_some.mpr ⟨_, hget⟩⟩
  next => cases h

/-- The package that a merge publishes is the archive of the tree that the packages of the container
compose: one entry for each way that a package writes to, named by the way, with the content of the
last write, and no other. The number of entries is reported, and a reader that gives back what was
written, as `Zip.read_write` says, finds exactly them. -/
theorem mergeContainer_last_write (scratch : Option PathText) (container output : PathText)
    (fs : FileSystem) (wf : fs.WellFormed) (outcome : MergeOutcome) (after : FileSystem)
    (h : (mergeContainer scratch container output).runIn fs = (.ok outcome, after)) :
    ∃ package tree, fs.readFile container = .ok package ∧ Merge.Composes package tree ∧
      (Merge.OutsideScratch scratch fs output →
        after.readFile output = .ok (Zip.write (tree.map Recompression.entry))) ∧
      (∀ file ∈ tree, Path.steps (Recompression.entry file).name = file.way) ∧
      outcome.entriesWritten = tree.length ∧
      (Zip.read (Zip.write (tree.map Recompression.entry))
          = .ok ((tree.map Recompression.entry).map Zip.NewFile.toMember) →
        ∃ held, Zip.read (Zip.write (tree.map Recompression.entry)) = .ok held ∧
          List.Forall₂ Merge.IsMemberFor tree held) := by
  obtain ⟨hfound, made, mid, assembly, package, packed, hscratched, hmade, hassembled, houtcome,
    hread, -⟩ := Merge.mergeContainer_ok wf h
  obtain ⟨hlocate, hanchored⟩ := hmade.anchored
  have hfresh := hmade.fresh wf
  rw [← hlocate] at hfresh
  obtain ⟨bytes, members, files, layers, tree, hbytes, hmembers, hfiles, hplan, hlayers, htree,
    hcount, hpacked⟩ := Merge.assemble_ok (hmade.wellFormed wf) hanchored hfresh hassembled.run
  rw [hassembled.read] at hpacked
  cases hpacked
  obtain ⟨content, hcontainer, hcontent⟩ := readFile_of_isFile hfound
  have hne : fs.locate container ≠ made.location := by
    intro heq
    rw [heq, contentAt?_of_absent hmade.absent] at hcontent
    cases hcontent
  rw [locate_congr hmade.current, contentAt?_congr (hmade.get?_of_ne hne), hcontent] at hbytes
  cases hbytes
  have hcomposes : Merge.Composes bytes tree := by
    refine ⟨members, files, assembly.plan, layers, hmembers, hfiles, hplan, ?_, htree⟩
    rwa [← SplitPlan.overlays_eq hfiles.nodup hplan]
  refine ⟨bytes, tree, hcontainer, hcomposes, fun hout => hread (hout made mid hscratched),
    fun file hfile => ?_, ?_, fun hback => ⟨_, hback, ?_⟩⟩
  · obtain ⟨hne, hnames⟩ := htree.named file hfile
    exact (WalkedFile.steps_relative hne hnames).2
  · rw [houtcome]
    exact hcount
  · rw [List.map_map, List.forall₂_map_right_iff]
    exact List.forall₂_same.mpr fun file _ => ⟨rfl, _, rfl⟩

/-- Two names for one file make one entry. -/
theorem mergeContainer_last_write_two_names :
    ∃ package tree after, Merge.TwoNames.before.readFile "/in.apks" = .ok package ∧
      Merge.Composes package tree ∧ tree.length = 1 ∧
      ((mergeContainer none "/in.apks" "/out.apk").runIn Merge.TwoNames.before).2 = after ∧
      after.readFile "/out.apk" = .ok (Zip.write (tree.map Recompression.entry)) := by
  have hout : Merge.OutsideScratch none Merge.TwoNames.before "/out.apk" :=
    Merge.OutsideScratch.of_names (by decide)
  obtain ⟨package, tree, hpackage, hcomposes, hread, -, hcount, -⟩ :=
    mergeContainer_last_write none "/in.apks" "/out.apk" Merge.TwoNames.before
      Merge.TwoNames.wellFormed _ _ Merge.TwoNames.merges
  exact ⟨package, tree, _, hpackage, hcomposes, hcount.symm,
    congrArg Prod.snd Merge.TwoNames.merges, hread hout⟩

end SdkEvidence
