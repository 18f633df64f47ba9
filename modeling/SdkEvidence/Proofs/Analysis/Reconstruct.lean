import SdkEvidence.Analysis.Run
import SdkEvidence.Proofs.Package.MergedPackage
import SdkEvidence.Proofs.Package.Relocation

/-!
# Merging inside a work directory

A container that was merged somewhere is merged again in a work directory, to the same package
(`reconstruct_relocated`). The merge works at two names of the directory and leaves room at the
others.
-/
namespace SdkEvidence

open FileSystem

theorem FileSystem.moveFile_of_free {fs : FileSystem} {source loc : Location} {p : PathText}
    {node : Node} (hsource : fs.get? source = some node)
    (hfree : fs.resolve p = .ok (.free loc false)) :
    fs.moveFile source p = .ok ((fs.removeTree source).put loc node) := by
  simp [moveFile, hsource, hfree]

namespace Merge

variable {fs after : FileSystem} {work : PathText} {name : String}

/-- The directory of a name in a directory with an absolute path is that directory. -/
theorem outputDirectory_join_name (habs : Path.isAbsolute work = true)
    (hdir : fs.isDirectory work = true) (hname : Storable name) :
    Path.isAbsolute (outputDirectory (Path.join work name)) = true ∧
      fs.find? (outputDirectory (Path.join work name)) = some (fs.locate work, .directory) := by
  have hrel := isAbsolute_of_isName hname.isName
  have henters := Enters.of_join (isDirectory_eq_true.mp hdir) hrel hname.no_nul
  rw [segments_of_isName hname.isName] at henters
  have hfiller : ∀ other ∈ [name], Path.isFiller other = false := by
    simpa using hname.isFiller
  obtain ⟨q, hparent, habove⟩ := henters.parent (by rw [Path.moves_of_names hfiller]; simp)
  rw [Path.above_of_names hfiller] at habove
  have houtput : outputDirectory (Path.join work name) = q := by
    simp [outputDirectory, hparent, habove.nonempty]
  rw [houtput, find?_eq_some, habove.resolve]
  refine ⟨?_, follow_fillers_directory habove.directory rfl⟩
  rw [(Path.parent?_eq_some hparent).1, Path.isAbsolute_join hrel]
  exact habs

theorem moveStaged_runs {assembled output : PathText} {staged : Location} {package : ByteArray}
    (hread : fs.readFile assembled = .ok package)
    (hmove : (fs.put staged (.file package false)).moveFile staged output = .ok after) :
    (moveStaged assembled output staged).runIn fs = (.ok (), after) := by
  unfold moveStaged
  refine Action.runIn_bind_ok.mpr ⟨package, fs, Action.runIn_step_ok.mpr (by rw [hread]), ?_⟩
  refine Action.runIn_bind_ok.mpr ⟨(), _, Action.runIn_change_ok.mpr rfl, ?_⟩
  exact Action.runIn_change_ok.mpr hmove

/-- A temporary file in a directory is filled and moved to another name there, which is still
free. -/
theorem moveFile_of_made {staged : FileSystem} {made : Temporary} {node filling : Node}
    {fresh : String} (hmade : Made fs made node staged)
    (hlocation : made.location = fs.locate work ++ [fresh]) (hne : fresh ≠ name)
    (hdir : fs.isDirectory work = true) (hname : Storable name)
    (habsent : fs.get? (fs.locate work ++ [name]) = none) :
    ∃ after, (staged.put made.location filling).moveFile made.location (Path.join work name)
      = .ok after := by
  obtain ⟨filled, hfilled⟩ : ∃ filled, filled = staged.put made.location filling := ⟨_, rfl⟩
  have hcurrent : filled.current = fs.current := by rw [hfilled, put_current, hmade.current]
  have hdir' : filled.isDirectory work = true := by
    refine isDirectory_of_stays hcurrent (fun d hd => ?_) hdir
    rw [hfilled, get?_put_of_ne, hmade.keeps hd]
    rintro rfl
    rw [hmade.absent] at hd
    cases hd
  have hloc : fs.locate work ++ [name] ≠ made.location := by
    simpa [hlocation] using Ne.symm hne
  have habsent' : filled.get? (filled.locate work ++ [name]) = none := by
    rw [locate_congr hcurrent, hfilled, get?_put_of_ne _ hloc, hmade.get?_of_ne hloc, habsent]
  have hsource : filled.get? made.location = some filling := by
    rw [hfilled, get?_put_self _ hmade.location_ne_nil]
  rw [← hfilled]
  exact ⟨_, moveFile_of_free hsource (resolve_free_join_name hdir' hname habsent')⟩

/-- A package is published at a free name in a directory. -/
theorem publish_runs {assembled : PathText} {package : ByteArray}
    (habs : Path.isAbsolute work = true) (hdir : fs.isDirectory work = true)
    (hname : Storable name) (hlead : ¬stagedLead.toList <+: name.toList)
    (habsent : fs.get? (fs.locate work ++ [name]) = none)
    (hread : fs.readFile assembled = .ok package) :
    ∃ after, (publish assembled (Path.join work name)).runIn fs = (.ok (), after) := by
  obtain ⟨hq, hfind⟩ := outputDirectory_join_name habs hdir hname
  have hqdir : fs.isDirectory (outputDirectory (Path.join work name)) = true := by
    simp [isDirectory, hfind]
  have hlocate := (find?_directory_trail hfind).1
  have hmake := makeTemporary_of_isDirectory hq hqdir stagedLead (.file .empty false)
  rw [← hlocate] at hmake
  have hne : fs.freshName (fs.locate work) stagedLead ≠ name := by
    obtain ⟨n, hn⟩ := freshName_eq fs (fs.locate work) stagedLead
    rintro rfl
    rw [hn, String.toList_append] at hlead
    exact hlead (List.prefix_append _ _)
  have hmade := makeTemporary_ok (by decide) hmake
  have hread' := readFile_of_keeps hmade.current (fun _ _ => hmade.keeps) hread
  obtain ⟨after, hmove⟩ := moveFile_of_made hmade rfl hne hdir hname habsent
  refine ⟨after, ?_⟩
  unfold publish
  refine Action.runIn_bind_ok.mpr
    ⟨(), fs, Action.runIn_step_ok.mpr (createDirectories_of_isDirectory hqdir), ?_⟩
  rw [Action.runIn_withStaged, hmake]
  dsimp only
  rw [moveStaged_runs hread' hmove]

/-- The directory of a name in a directory is entered as that directory is. -/
theorem entered_outputDirectory (hwork : Entered fs work) (hname : IsName name) :
    Entered fs (outputDirectory (Path.join work name)) := by
  have hrel := isAbsolute_of_isName hname
  have hsteps : Path.steps (Path.join work name) = Path.steps work ++ [name] := by
    rw [Path.steps_join hrel, steps_of_isName hname]
  obtain ⟨q, hparent⟩ := Path.exists_parent? (p := Path.join work name) (by simp [hsteps])
  obtain ⟨habs, hq⟩ := Path.parent?_eq_some hparent
  rw [Path.isAbsolute_join hrel] at habs
  rw [hsteps, List.dropLast_concat] at hq
  have htrail : fs.trail (outputDirectory (Path.join work name)) = fs.trail q := by
    unfold outputDirectory
    rw [hparent]
    dsimp only
    split
    next hempty => rw [hempty]; rfl
    next => rfl
  have hsame : fs.trail q = fs.trail work := by
    rw [trail, trail, start, start, habs, hq]
  rw [Entered, htrail, hsame]
  exact hwork

/-- A merge to a free name in a directory changes nothing elsewhere, however it ends. -/
theorem mergeContainer_within_name {scratch : Option PathText} {container : PathText}
    {outcome : Except Failure MergeOutcome} (wf : fs.WellFormed) (hwork : Entered fs work)
    (hname : IsName name) (habsent : fs.get? (fs.locate work ++ [name]) = none)
    (h : (mergeContainer scratch container (Path.join work name)).runIn fs = (outcome, after)) :
    Within (fs.locate work ++ [name]) fs after := by
  obtain ⟨hcurrent, hafter⟩ := mergeContainer_wellFormed wf h
  have houtput := entered_outputDirectory hwork hname
  have hsame {loc : Location} (hloc : loc ≠ fs.locate work ++ [name]) :
      after.get? loc = fs.get? loc := by
    cases outcome with
    | error e =>
      rcases mergeContainer_error wf h with hsame | ⟨-, hgrown⟩
      · exact hsame loc
      · exact houtput.eq_of_grownAt (hgrown loc)
    | ok outcome =>
      obtain ⟨-, -, -, -, -, -, -, -, -, -, -, hgrown⟩ := mergeContainer_ok wf h
      rw [locate_join_name fs work hname] at hgrown
      exact houtput.eq_of_grownAt (hgrown loc hloc)
  refine ⟨hcurrent, fun loc hloc => hsame ?_, fun loc hget => ?_, fun _ => hafter⟩
  · rintro rfl
    exact hloc (List.prefix_refl _)
  · rw [hsame, hget]
    rintro rfl
    rw [habsent] at hget
    cases hget

/-- What is left of a file system is read as before. -/
theorem readFile_removeTree {last : FileSystem} {top : Location} {p : PathText}
    (hfile : (last.removeTree top).isFile p = true) :
    (last.removeTree top).readFile p = last.readFile p := by
  obtain ⟨content, hread, -⟩ := readFile_of_isFile hfile
  have hcurrent : last.current = (last.removeTree top).current := rfl
  rw [hread]
  refine (readFile_of_keeps hcurrent (fun loc node hget => ?_) hread).symm
  by_cases hnil : loc = []
  · simpa [hnil] using hget
  · rw [get?_removeTree _ _ _ hnil] at hget
    split at hget
    next => cases hget
    next => exact hget

/-- A merge that left a file has published the package that it put together there. -/
theorem mergeContainer_published {scratch : Option PathText} {container output : PathText}
    {outcome : MergeOutcome} (wf : fs.WellFormed)
    (h : (mergeContainer scratch container output).runIn fs = (.ok outcome, after))
    (hfile : after.isFile output = true) :
    ∃ made mid assembly package packed, Scratched scratch fs made mid ∧
      Assembled container made mid assembly package packed ∧
      after.readFile output = .ok package := by
  obtain ⟨-, made, mid, packed, last, assembly, package, scratched, assembled, publishes, -,
    rfl⟩ := published_of_run wf h
  have hmade := makeTemporary_ok (by decide) scratched
  obtain ⟨-, -, hread, -⟩ :=
    publish_ok (assembled.within.wellFormed (hmade.wellFormed wf)) assembled.read publishes
  exact ⟨made, mid, assembly, package, packed, scratched, assembled,
    (readFile_removeTree hfile).trans hread⟩

/-- A scratch directory in which a package was put together had room for it. -/
theorem room_of_assemble {mid packed : FileSystem} {parent container : PathText} {lead : String}
    {made : Temporary} {assembly : Assembly} (wf : fs.WellFormed) (hlead : '/' ∉ lead.toList)
    (hmake : fs.makeTemporary parent lead .directory = .ok (made, mid))
    (hrun : (assemble made.path container).runIn mid = (.ok assembly, packed)) :
    Room mid made.path workNames := by
  have hmade := makeTemporary_ok hlead hmake
  obtain ⟨hlocate, hanchored⟩ := hmade.anchored
  obtain ⟨opened, unpacked, _, _, _, _, hopen, -⟩ := runIn_assemble_ok.mp hrun
  refine ⟨?_, fun name _ => ?_⟩
  · have habs : Path.isAbsolute made.path = true := by
      obtain ⟨above, habove, -, rfl, -⟩ := makeTemporary_inv hmake
      obtain ⟨n, hn⟩ := freshName_eq fs (fs.locate above) lead
      rw [Path.isAbsolute_join, habove]
      rw [hn]
      exact isAbsolute_of_isName (isName_append_candidate hlead n)
    have hne : made.path ≠ "" := by
      intro hempty
      rw [hempty] at habs
      cases habs
    have hfind := extractInto_find? (Path.join_ne_empty (by decide)) hopen
    have hdir := isDirectory_of_join hne (by decide) (find?_eq_some.mp hfind)
    have hwithin := extractInto_within hanchored (by decide) hopen
    have hresolve : unpacked.resolve made.path = mid.resolve made.path := by
      refine resolve_congr hwithin.current fun d hd => ?_
      have hthere : mid.get? d = some .directory := by
        rw [trail_congr hmade.current] at hd
        rcases hmade.way d hd with rfl | hold
        · exact hmade.get?_self
        · exact hmade.keeps hold
      rw [hwithin.directories d hthere, hthere]
    simpa only [isDirectory, find?, hresolve] using hdir
  · rw [hlocate]
    exact hmade.fresh wf name []

/-- A merge that left a file put the container together to that package. -/
theorem putTogether_of_merge {scratch : Option PathText} {container output : PathText}
    {outcome : MergeOutcome} (wf : fs.WellFormed)
    (h : (mergeContainer scratch container output).runIn fs = (.ok outcome, after))
    (hfile : after.isFile output = true) :
    ∃ fs₀ scratch₀ content package, PutTogether fs₀ scratch₀ container content package ∧
      fs.readFile container = .ok content ∧ after.readFile output = .ok package := by
  obtain ⟨hcontainer, -⟩ := mergeContainer_ok wf h
  obtain ⟨content, hcontent, -⟩ := readFile_of_isFile hcontainer
  obtain ⟨made, mid, assembly, package, packed, hscratched, hassembled, hpackage⟩ :=
    mergeContainer_published wf h hfile
  have hmade := makeTemporary_ok (by decide) hscratched
  refine ⟨mid, made.path, content, package, ?_, hcontent, hpackage⟩
  exact
    { wellFormed := hmade.wellFormed wf
      room := room_of_assemble wf (by decide) hscratched hassembled.run
      read := readFile_of_keeps hmade.current (fun _ _ => hmade.keeps) hcontent
      assembles := ⟨assembly, packed, hassembled.run, hassembled.read⟩ }

/-- A scratch directory with room for its first temporary name is where a merge works. -/
theorem scratched_in_room {scratch : PathText} (wf : fs.WellFormed)
    (habs : Path.isAbsolute scratch = true)
    (hroom : Room fs scratch [scratchLead ++ candidate fs.seed]) (hseed : fs.seed < UInt64.size) :
    ∃ made mid, Scratched (some scratch) fs made mid ∧ Room mid made.path workNames ∧
      made.location = fs.locate scratch ++ [scratchLead ++ candidate fs.seed] := by
  have hmake := makeTemporary_of_isDirectory habs hroom.isDirectory scratchLead .directory
  have hfree := hroom.absent _ (List.mem_singleton_self _)
  rw [freshName_of_absent hfree] at hmake
  have hlead : ShortLead scratchLead := ⟨by decide, by decide, by decide⟩
  exact ⟨_, _, hmake, Room.of_put wf hroom.isDirectory (hlead.storable hseed) hfree workNames, rfl⟩

/-- A container that was put together somewhere is merged inside a work directory, to the same
package. -/
theorem mergeContainer_relocated {fs₀ : FileSystem} {scratch₀ container : PathText}
    {content package : ByteArray} (h₀ : PutTogether fs₀ scratch₀ container content package)
    (wf : fs.WellFormed) (habs : Path.isAbsolute work = true) (hroom : Room fs work ["merged.apk"])
    (hscratch : Room fs (Path.join work "scratch") [scratchLead ++ candidate fs.seed])
    (hseed : fs.seed < UInt64.size) (hread : fs.readFile container = .ok content) :
    ∃ outcome after, (mergeContainer (some (Path.join work "scratch")) container
        (Path.join work "merged.apk")).runIn fs = (.ok outcome, after) ∧
      after.readFile (Path.join work "merged.apk") = .ok package := by
  have hname := storable_workNames "merged.apk" (by decide)
  have hfile : fs.isFile container = true := by
    obtain ⟨loc, executable, hresolve⟩ := readFile_eq_ok.mp hread
    simp [isFile, find?, hresolve]
  -- the container is put together in the scratch directory of the merge
  have habs' : Path.isAbsolute (Path.join work "scratch") = true := by
    rw [Path.isAbsolute_join (by decide)]
    exact habs
  obtain ⟨made, mid, hmake, hroom', hlocation⟩ := scratched_in_room wf habs' hscratch hseed
  have hmade := makeTemporary_ok (by decide) hmake
  obtain ⟨assembly, packed, hrun, hpackage⟩ := (h₀.relocate (hmade.wellFormed wf) hroom'
    (readFile_of_keeps hmade.current (fun _ _ => hmade.keeps) hread)).assembles
  obtain ⟨package', hassembled⟩ := assembled_of_run wf hmade hrun
  cases hassembled.read.symm.trans hpackage
  -- its output is not in there, and still free
  have hout : ∀ loc ∈ fs.trail (Path.join work "merged.apk"), ¬made.location <+: loc := by
    rintro loc hloc ⟨way, rfl⟩
    rcases mem_trail_join_name hname.isName hloc with hloc | hloc
    · have hthere :=
        (find?_directory_trail (isDirectory_eq_true.mp hroom.isDirectory)).2 _ hloc
      rw [wf.get?_below_absent hmade.absent way] at hthere
      cases hthere
    · rw [hlocation, locate_join_name fs work (by decide)] at hloc
      simp at hloc
  have hcurrent := hassembled.within.current.trans hmade.current
  have hdir : packed.isDirectory work = true :=
    isDirectory_of_stays hcurrent
      (fun d hd => hassembled.within.directories d (hmade.keeps hd)) hroom.isDirectory
  have habsent : packed.get? (packed.locate work ++ ["merged.apk"]) = none := by
    have hend := hout _ (locate_mem_trail fs _)
    rw [locate_join_name fs work hname.isName] at hend
    rw [locate_congr hcurrent, hassembled.within.outside _ hend, hmade.get?_of_ne]
    · exact hroom.absent _ (List.mem_singleton_self _)
    · rintro heq
      exact hend (heq ▸ List.prefix_refl _)
  obtain ⟨last, hpublish⟩ := publish_runs habs hdir hname (by decide) habsent hassembled.read
  have hmerge := runIn_mergeContainer_of_steps hfile hmake (hassembled.runIn_mergeIn hpublish)
  refine ⟨_, _, hmerge, ?_⟩
  obtain ⟨-, made', mid', assembly', package', packed', hmake', -, hassembled', -, hread', -⟩ :=
    mergeContainer_ok wf hmerge
  cases hmake'.symm.trans hmake
  obtain ⟨-, rfl⟩ := Prod.mk.inj (hassembled'.run.symm.trans hrun)
  rw [hread' hout, ← hassembled'.read, hassembled.read]

end Merge

namespace Analyzer

/-- The names that a run uses in its work directory. -/
def runNames : List String := ["scratch", "merged.apk", "decompiled", "raw"]

theorem storable_runNames : ∀ name ∈ runNames, Storable name := by
  decide

theorem runIn_reconstruct_of_steps {fs made after : FileSystem} {work container : PathText}
    {outcome : MergeOutcome}
    (hmade : fs.createDirectories (Path.join work "scratch") = (made, .ok ()))
    (hmerge : (mergeContainer (some (Path.join work "scratch")) container
      (Path.join work "merged.apk")).runIn made = (.ok outcome, after)) :
    (reconstruct work container).runIn fs
      = (.ok { path := Path.join work "merged.apk", merge := some outcome
               stages := [.ofItems "Reconstruct" outcome.entriesWritten] }, after) := by
  unfold reconstruct
  refine Action.runIn_bind_ok.mpr ⟨(), made, Action.runIn_step_ok.mpr hmade, ?_⟩
  exact Action.runIn_bind_ok.mpr ⟨outcome, after, hmerge, rfl⟩

/-- A container that was put together somewhere is reconstructed in a work directory, to the same
package. -/
theorem reconstruct_relocated {fs₀ fs : FileSystem} {scratch₀ container work : PathText}
    {content package : ByteArray} (h₀ : Merge.PutTogether fs₀ scratch₀ container content package)
    (wf : fs.WellFormed) (habs : Path.isAbsolute work = true) (hroom : Room fs work runNames)
    (hseed : fs.seed < UInt64.size) (hread : fs.readFile container = .ok content) :
    ∃ prepared after, (reconstruct work container).runIn fs = (.ok prepared, after) ∧
      after.readFile prepared.path = .ok package ∧ Within (fs.locate work) fs after ∧
      Room after work ["decompiled", "raw"] := by
  have hscratch := storable_runNames "scratch" (by decide)
  have hfree := hroom.absent "scratch" (by decide)
  have hmade := createDirectories_join_name hroom.isDirectory hscratch hfree
  have hwithin := within_put_name hroom.isDirectory hscratch.isName hfree .directory
  have hroom₁ : Room _ work ["merged.apk", "decompiled", "raw"] :=
    hroom.of_within hwithin (by decide)
  have hlead : ShortLead Merge.scratchLead := ⟨by decide, by decide, by decide⟩
  have hroom₂ := Room.of_put wf hroom.isDirectory hscratch hfree
    [Merge.scratchLead ++ candidate fs.seed]
  have hread' :=
    readFile_of_keeps hwithin.current (fun _ _ hget => get?_put_of_absent hfree hget _) hread
  generalize hmid : fs.put (fs.locate work ++ ["scratch"]) .directory = mid
    at hmade hwithin hroom₁ hroom₂ hread'
  have hseed' : mid.seed = fs.seed := by rw [← hmid, put_seed]
  rw [← hseed'] at hroom₂ hseed
  have wf' := hwithin.wellFormed wf
  obtain ⟨outcome, after, hmerge, hpackage'⟩ := Merge.mergeContainer_relocated h₀ wf' habs
    (hroom₁.mono (by decide)) hroom₂ hseed hread'
  have hwithin' := Merge.mergeContainer_within_name wf' (entered_of_isDirectory hroom₁.isDirectory)
    (storable_runNames "merged.apk" (by decide)).isName (hroom₁.absent _ (by decide)) hmerge
  refine ⟨_, after, runIn_reconstruct_of_steps hmade hmerge, hpackage', ?_,
    hroom₁.of_within hwithin' (by decide)⟩
  rw [locate_congr hwithin.current] at hwithin'
  exact (hwithin.mono (List.prefix_append _ _)).trans (hwithin'.mono (List.prefix_append _ _))

end Analyzer
end SdkEvidence
