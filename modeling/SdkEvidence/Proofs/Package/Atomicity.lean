import SdkEvidence.Proofs.Package.FirstFailure

/-!
# Merges are all or nothing

A merge that fails leaves all files as they were, and one that succeeds changes the output only. In
both cases the scratch directory and the staged file are gone. What may be new are directories on
the way to the output, once the package is published (`mergeContainer_atomic`).
-/
namespace SdkEvidence

open FileSystem

theorem Zip.size_write_ne_zero (files : List NewFile) : (Zip.write files).size ≠ 0 := by
  simp [Zip.write, LittleEndian.length_bytes]

/-- Inside of the directory that is made for a merge, nothing stands yet. -/
theorem FileSystem.Made.anchored {fs mid : FileSystem} {made : Temporary}
    (h : Made fs made .directory mid) :
    mid.locate made.path = made.location ∧ Anchored mid made.path := by
  have hlocate : mid.locate made.path = made.location := by
    rw [locate_congr h.current, h.locate]
  refine ⟨hlocate, fun loc hloc => ?_⟩
  rw [trail_congr h.current] at hloc
  rw [hlocate]
  rcases h.way loc hloc with rfl | hdir
  · exact Or.inl (List.prefix_refl _)
  · refine Or.inr ?_
    rw [h.get?_of_ne, hdir]
    · rfl
    · rintro rfl
      rw [h.absent] at hdir
      cases hdir

/-- Removing the directory of a merge leaves what has grown outside of it. -/
theorem FileSystem.GrownAt.removed {fs mid packed last : FileSystem} {made : Temporary}
    {node : Node} {grown : List Location} (wf : fs.WellFormed) (hmade : Made fs made node mid)
    (hwithin : Within made.location mid packed) {loc : Location}
    (h : GrownAt grown packed last loc) :
    GrownAt grown fs (last.removeTree made.location) loc := by
  by_cases hnil : loc = []
  · exact Or.inl (by simp [hnil])
  rw [GrownAt, get?_removeTree last _ _ hnil]
  split
  next hbelow =>
    obtain ⟨way, rfl⟩ := hbelow
    exact Or.inl (wf.get?_below_absent hmade.absent way).symm
  next hout =>
    have hne : loc ≠ made.location := by
      rintro rfl
      exact hout (List.prefix_refl _)
    have hpacked : packed.get? loc = fs.get? loc := by
      rw [hwithin.outside loc hout, hmade.get?_of_ne hne]
    rw [GrownAt, hpacked] at h
    exact h

namespace Merge

variable {scratch : Option PathText} {container output : PathText} {fs : FileSystem}

/-- The directory that a merge works in is made in the scratch root. -/
def Scratched (scratch : Option PathText) (fs : FileSystem) (made : Temporary) (mid : FileSystem) :
    Prop :=
  fs.makeTemporary (scratch.getD fs.temporary) scratchLead .directory = .ok (made, mid)

/-- The output's path does not pass through the directory that is made for the merge. -/
def OutsideScratch (scratch : Option PathText) (fs : FileSystem) (output : PathText) : Prop :=
  ∀ made mid, Scratched scratch fs made mid → ∀ loc ∈ fs.trail output, ¬made.location <+: loc

/-- An output is outside if no name on the way to it starts as the directory's name does. -/
theorem OutsideScratch.of_names
    (h : ∀ name ∈ fs.start output ++ Path.steps output, ¬scratchLead.toList <+: name.toList) :
    OutsideScratch scratch fs output := by
  intro made mid hscratched loc hloc hbelow
  obtain ⟨name, hname, hlead⟩ := exists_lead_of_makeTemporary hscratched
  exact h name (Location.mem_of_mem_trail hloc (hbelow.subset hname)) hlead

/-- How the first step of a merge that fails names its failure. -/
inductive FirstFailure (scratch : Option PathText) (container output : PathText)
    (fs : FileSystem) : Failure → Prop
  | missing (absent : fs.isFile container = false) :
      FirstFailure scratch container output fs
        (.invalidInput ("Split container not found: " ++ container))
  | scratch {reason : OsError} (found : fs.isFile container = true)
      (fails : fs.makeTemporary (scratch.getD fs.temporary) scratchLead .directory
        = .error reason) :
      FirstFailure scratch container output fs (.system reason.message)
  | assembly {made : Temporary} {mid : FileSystem} {e : Failure}
      (found : fs.isFile container = true) (scratched : Scratched scratch fs made mid)
      (fails : AssemblyFailure made.path container mid e) :
      FirstFailure scratch container output fs e
  | publishing {made : Temporary} {mid packed after : FileSystem} {assembly : Assembly}
      {reason : OsError} (found : fs.isFile container = true)
      (scratched : Scratched scratch fs made mid)
      (assembled : (assemble made.path container).runIn mid = (.ok assembly, packed))
      (fails : (publish (assembledIn made.path) output).runIn packed
        = (.error (publishingFailure output reason), after)) :
      FirstFailure scratch container output fs (publishingFailure output reason)

/-- The package that was put together in the directory of a merge. -/
structure Assembled (container : PathText) (made : Temporary) (mid : FileSystem)
    (assembly : Assembly) (package : ByteArray) (packed : FileSystem) : Prop where
  run : (assemble made.path container).runIn mid = (.ok assembly, packed)
  read : packed.readFile (assembledIn made.path) = .ok package
  size : sizeAt packed (assembledIn made.path) = package.size
  nonempty : package.size ≠ 0
  within : Within made.location mid packed

/-- An assembly that succeeds has left its package, which is not empty. -/
theorem assembled_of_run {made : Temporary} {mid packed : FileSystem} {assembly : Assembly}
    (wf : fs.WellFormed) (hmade : Made fs made .directory mid)
    (h : (assemble made.path container).runIn mid = (.ok assembly, packed)) :
    ∃ package, Assembled container made mid assembly package packed := by
  obtain ⟨hlocate, hanchored⟩ := hmade.anchored
  have hfresh := hmade.fresh wf
  rw [← hlocate] at hfresh
  obtain ⟨_, _, _, _, tree, _, _, _, _, _, _, _, hread⟩ :=
    assemble_ok (hmade.wellFormed wf) hanchored hfresh h
  have hwithin := assemble_inside made.path container mid _ packed hanchored h
  rw [hlocate] at hwithin
  have hsize : sizeAt packed (assembledIn made.path)
      = (Zip.write (tree.map Recompression.entry)).size := by
    simp [sizeAt, hread]
  exact ⟨_, h, hread, hsize, Zip.size_write_ne_zero _, hwithin⟩

/-- What was assembled is published, and how that ends is how the merge ends. -/
theorem Assembled.runIn_mergeIn {made : Temporary} {mid packed last : FileSystem}
    {assembly : Assembly} {package : ByteArray} {published : Except Failure Unit}
    (h : Assembled container made mid assembly package packed)
    (hpublish : (publish (assembledIn made.path) output).runIn packed = (published, last)) :
    (mergeIn made.path container output).runIn mid
      = (published.map fun _ => assembly.outcome output package.size, last) := by
  have hne : sizeAt packed (assembledIn made.path) ≠ 0 := by
    rw [h.size]
    exact h.nonempty
  rw [runIn_mergeIn_of_steps h.run hne hpublish, h.size]

/-- The ways that a merge can go. -/
inductive Course (scratch : Option PathText) (container output : PathText) (fs : FileSystem) :
    Except Failure MergeOutcome → FileSystem → Prop
  | absent (absent : fs.isFile container = false) :
      Course scratch container output fs
        (.error (.invalidInput ("Split container not found: " ++ container))) fs
  | unscratched {reason : OsError} (found : fs.isFile container = true)
      (fails : fs.makeTemporary (scratch.getD fs.temporary) scratchLead .directory
        = .error reason) :
      Course scratch container output fs (.error (.ofOsError reason)) fs
  | unassembled {made : Temporary} {mid packed : FileSystem} {e : Failure}
      (found : fs.isFile container = true) (scratched : Scratched scratch fs made mid)
      (fails : (assemble made.path container).runIn mid = (.error e, packed)) :
      Course scratch container output fs (.error e) (packed.removeTree made.location)
  | assembled {made : Temporary} {mid packed last : FileSystem} {assembly : Assembly}
      {package : ByteArray} {published : Except Failure Unit}
      (found : fs.isFile container = true) (scratched : Scratched scratch fs made mid)
      (assembled : Assembled container made mid assembly package packed)
      (publishes : (publish (assembledIn made.path) output).runIn packed = (published, last)) :
      Course scratch container output fs
        (published.map fun _ => assembly.outcome output package.size)
        (last.removeTree made.location)

/-- A merge goes one of these ways. -/
theorem course_of_run (wf : fs.WellFormed) {outcome : Except Failure MergeOutcome}
    {after : FileSystem}
    (h : (mergeContainer scratch container output).runIn fs = (outcome, after)) :
    Course scratch container output fs outcome after := by
  rw [runIn_mergeContainer] at h
  split at h
  next habsent =>
    cases h
    exact .absent habsent
  next hfound =>
    have hfound : fs.isFile container = true := by simpa using hfound
    split at h
    next reason hfails =>
      cases h
      exact .unscratched hfound hfails
    next made mid hscratched =>
      rcases hassemble : (assemble made.path container).runIn mid with ⟨assembled, packed⟩
      cases assembled with
      | error e =>
        rw [runIn_mergeIn, hassemble] at h
        cases h
        exact .unassembled hfound hscratched hassemble
      | ok assembly =>
        obtain ⟨package, hassembled⟩ :=
          assembled_of_run wf (makeTemporary_ok (by decide) hscratched) hassemble
        rcases hpublish : (publish (assembledIn made.path) output).runIn packed with
          ⟨published, last⟩
        rw [hassembled.runIn_mergeIn hpublish] at h
        cases h
        exact .assembled hfound hscratched hassembled hpublish

/-- A merge succeeds by publishing the package that it assembled. -/
theorem published_of_run (wf : fs.WellFormed) {outcome : MergeOutcome} {after : FileSystem}
    (h : (mergeContainer scratch container output).runIn fs = (.ok outcome, after)) :
    fs.isFile container = true ∧ ∃ made mid packed last assembly package,
      Scratched scratch fs made mid ∧ Assembled container made mid assembly package packed ∧
      (publish (assembledIn made.path) output).runIn packed = (.ok (), last) ∧
      outcome = assembly.outcome output package.size ∧ after = last.removeTree made.location := by
  generalize hgiven : Except.ok outcome = given at h
  cases course_of_run wf h with
  | absent => cases hgiven
  | unscratched => cases hgiven
  | unassembled => cases hgiven
  | @assembled made mid packed last assembly package published found scratched assembled
      publishes =>
    cases published with
    | error e => cases hgiven
    | ok u =>
      cases hgiven
      exact ⟨found, made, mid, packed, last, assembly, package, scratched, assembled, publishes,
        rfl, rfl⟩

/-- A merge fails exactly when one of its steps does, and its failure is that of the first one. -/
theorem failure_iff (wf : fs.WellFormed) {e : Failure} :
    ((mergeContainer scratch container output).runIn fs).1 = .error e
      ↔ FirstFailure scratch container output fs e := by
  constructor
  · intro h
    rcases hrun : (mergeContainer scratch container output).runIn fs with ⟨outcome, after⟩
    rw [hrun] at h
    subst h
    generalize houtcome : Except.error e = outcome at hrun
    cases course_of_run wf hrun with
    | absent absent =>
      cases houtcome
      exact .missing absent
    | unscratched found fails =>
      cases houtcome
      exact .scratch found fails
    | unassembled found scratched fails =>
      cases houtcome
      exact .assembly found scratched (assemble_error_iff.mp ⟨_, fails⟩)
    | @assembled made mid packed last assembly package published found scratched assembled
        publishes =>
      cases published with
      | ok u => cases houtcome
      | error e' =>
        cases houtcome
        have hmid := (makeTemporary_ok (by decide) scratched).wellFormed wf
        obtain ⟨⟨reason, rfl⟩, -⟩ := publish_error (assembled.within.wellFormed hmid) publishes
        exact .publishing found scratched assembled.run publishes
  · intro h
    cases h with
    | missing absent => rw [runIn_mergeContainer, if_pos absent]
    | scratch found fails =>
      rw [runIn_mergeContainer, if_neg (by simp [found]), fails]
      rfl
    | assembly found scratched fails =>
      obtain ⟨packed, hassemble⟩ := assemble_error_iff.mpr fails
      rw [runIn_mergeContainer_of_steps found scratched (runIn_mergeIn_of_error hassemble)]
    | @publishing made mid packed after assembly reason found scratched assembled fails =>
      obtain ⟨package, hassembled⟩ :=
        assembled_of_run wf (makeTemporary_ok (by decide) scratched) assembled
      rw [runIn_mergeContainer_of_steps found scratched (hassembled.runIn_mergeIn fails)]
      rfl

/-- What a merge that fails leaves: all is as it was, or the package could not be published, and
there are new directories on the way to the output. -/
def FailureLeaves (output : PathText) (fs : FileSystem) (e : Failure) (after : FileSystem) : Prop :=
  (∀ loc, after.get? loc = fs.get? loc) ∨
    (∃ reason, e = publishingFailure output reason) ∧
      ∀ loc, GrownAt (fs.trail (outputDirectory output)) fs after loc

theorem mergeContainer_error (wf : fs.WellFormed) {e : Failure} {after : FileSystem}
    (h : (mergeContainer scratch container output).runIn fs = (.error e, after)) :
    FailureLeaves output fs e after := by
  generalize houtcome : Except.error e = outcome at h
  cases course_of_run wf h with
  | absent => exact Or.inl fun _ => rfl
  | unscratched => exact Or.inl fun _ => rfl
  | @unassembled made mid packed e' found scratched fails =>
    have hmade := makeTemporary_ok (by decide) scratched
    obtain ⟨hlocate, hanchored⟩ := hmade.anchored
    have hwithin := assemble_inside made.path container mid _ packed hanchored fails
    rw [hlocate] at hwithin
    exact Or.inl (hmade.get?_removed wf hwithin.outside)
  | @assembled made mid packed last assembly package published found scratched assembled
      publishes =>
    have hmade := makeTemporary_ok (by decide) scratched
    cases published with
    | ok u => cases houtcome
    | error e' =>
      cases houtcome
      obtain ⟨hreason, hlast⟩ :=
        publish_error (assembled.within.wellFormed (hmade.wellFormed wf)) publishes
      refine Or.inr ⟨hreason, fun loc => ?_⟩
      have hgrown := (hlast.node loc).removed wf hmade assembled.within
      rwa [trail_congr (assembled.within.current.trans hmade.current)] at hgrown

/-- A merge that succeeds has published the package that it assembled. -/
theorem mergeContainer_ok (wf : fs.WellFormed) {outcome : MergeOutcome} {after : FileSystem}
    (h : (mergeContainer scratch container output).runIn fs = (.ok outcome, after)) :
    fs.isFile container = true ∧ ∃ made mid assembly package packed,
      Scratched scratch fs made mid ∧ Made fs made .directory mid ∧
      Assembled container made mid assembly package packed ∧
      outcome = assembly.outcome output package.size ∧
      ((∀ loc ∈ fs.trail output, ¬made.location <+: loc) →
        after.readFile output = .ok package) ∧
      ∀ loc, loc ≠ fs.locate output → GrownAt (fs.trail (outputDirectory output)) fs after loc := by
  obtain ⟨found, made, mid, packed, last, assembly, package, scratched, assembled, publishes,
    rfl, rfl⟩ := published_of_run wf h
  have hmade := makeTemporary_ok (by decide) scratched
  have hcurrent := assembled.within.current.trans hmade.current
  obtain ⟨hkept, -, hread, -, hlast⟩ :=
    publish_ok (assembled.within.wellFormed (hmade.wellFormed wf)) assembled.read publishes
  refine ⟨found, made, mid, assembly, package, packed, scratched, hmade, assembled, rfl, ?_, ?_⟩
  · intro hout
    rw [readFile_eq_ok] at hread ⊢
    obtain ⟨loc, executable, hresolve⟩ := hread
    refine ⟨loc, executable, ?_⟩
    rw [← hresolve]
    refine resolve_congr rfl fun d hd => ?_
    rw [trail_congr (hkept.trans hcurrent)] at hd
    by_cases hnil : d = []
    · simp [hnil]
    · rw [get?_removeTree last _ _ hnil, if_neg (hout d hd)]
  · intro loc hloc
    rw [← locate_congr hcurrent] at hloc
    have hgrown := (hlast loc hloc).removed wf hmade assembled.within
    rwa [trail_congr hcurrent] at hgrown

/-- A merge keeps the invariant, however it ends. -/
theorem mergeContainer_wellFormed (wf : fs.WellFormed) {outcome : Except Failure MergeOutcome}
    {after : FileSystem}
    (h : (mergeContainer scratch container output).runIn fs = (outcome, after)) :
    after.current = fs.current ∧ after.WellFormed := by
  cases course_of_run wf h with
  | absent => exact ⟨rfl, wf⟩
  | unscratched => exact ⟨rfl, wf⟩
  | @unassembled made mid packed e found scratched fails =>
    have hmade := makeTemporary_ok (by decide) scratched
    have hwithin := assemble_inside made.path container mid _ packed hmade.anchored.2 fails
    exact ⟨hwithin.current.trans hmade.current,
      (hwithin.wellFormed (hmade.wellFormed wf)).removeTree _⟩
  | @assembled made mid packed last assembly package published found scratched assembled
      publishes =>
    have hmade := makeTemporary_ok (by decide) scratched
    have hkept := assembled.within.current.trans hmade.current
    have wf' := assembled.within.wellFormed (hmade.wellFormed wf)
    cases published with
    | error e =>
      obtain ⟨-, hlast⟩ := publish_error wf' publishes
      exact ⟨hlast.current.trans hkept, (hlast.wellFormed wf').removeTree _⟩
    | ok u =>
      obtain ⟨hcurrent, hlast, -⟩ := publish_ok wf' assembled.read publishes
      exact ⟨hcurrent.trans hkept, hlast.removeTree _⟩

/-- The output of a merge that succeeds takes no directory's place. -/
theorem mergeContainer_output (wf : fs.WellFormed) {outcome : MergeOutcome} {after : FileSystem}
    (h : (mergeContainer scratch container output).runIn fs = (.ok outcome, after)) :
    fs.get? (fs.locate output) ≠ some .directory := by
  obtain ⟨-, made, mid, packed, last, assembly, package, scratched, assembled, publishes, -⟩ :=
    published_of_run wf h
  have hmade := makeTemporary_ok (by decide) scratched
  obtain ⟨-, -, -, hnot, -⟩ :=
    publish_ok (assembled.within.wellFormed (hmade.wellFormed wf)) assembled.read publishes
  rw [locate_congr (assembled.within.current.trans hmade.current)] at hnot
  exact fun hdir => hnot (assembled.within.directories _ (hmade.keeps hdir))

end Merge

/-- A merge that fails does so with the failure of its first step that fails. No file changes, and
nothing is new but directories on the way to the output, if the package could not be published. A
merge that succeeds replaces the output by the whole package, whose size it reports; apart from the
output, nothing is new but directories on the way to it. -/
theorem mergeContainer_atomic (scratch : Option PathText) (container output : PathText)
    (fs : FileSystem) (wf : fs.WellFormed) :
    (∀ e, ((mergeContainer scratch container output).runIn fs).1 = .error e
      ↔ Merge.FirstFailure scratch container output fs e) ∧
    match (mergeContainer scratch container output).runIn fs with
    | (.error e, after) =>
        (∀ loc, after.contentAt? loc = fs.contentAt? loc) ∧ Merge.FailureLeaves output fs e after
    | (.ok outcome, after) =>
        ∃ made mid assembly package packed, Merge.Scratched scratch fs made mid ∧
          Merge.Assembled container made mid assembly package packed ∧
          outcome.outputBytes = package.size ∧
          (Merge.OutsideScratch scratch fs output → after.readFile output = .ok package) ∧
          ∀ loc, loc ≠ fs.locate output →
            GrownAt (fs.trail (Merge.outputDirectory output)) fs after loc := by
  refine ⟨fun e => Merge.failure_iff wf, ?_⟩
  rcases hrun : (mergeContainer scratch container output).runIn fs with ⟨outcome, after⟩
  cases outcome with
  | error e =>
    have hleaves := Merge.mergeContainer_error wf hrun
    refine ⟨fun loc => ?_, hleaves⟩
    rcases hleaves with hsame | ⟨-, hgrown⟩
    · exact contentAt?_congr (hsame loc)
    · exact (hgrown loc).contentAt?
  | ok outcome =>
    obtain ⟨-, made, mid, assembly, package, packed, hscratched, -, hassembled, houtcome, hread,
      hgrown⟩ := Merge.mergeContainer_ok wf hrun
    refine ⟨made, mid, assembly, package, packed, hscratched, hassembled, ?_, ?_, hgrown⟩
    · rw [houtcome]
      rfl
    · exact fun hout => hread (hout made mid hscratched)

/-- A merge that cannot publish its package. -/
theorem mergeContainer_atomic_unpublished :
    Merge.TwoNames.before.WellFormed ∧
      Merge.FirstFailure none "/in.apks" "/new/out.apk/" Merge.TwoNames.before
        (Merge.publishingFailure "/new/out.apk/" .notADirectory) := by
  have hatomic := mergeContainer_atomic none "/in.apks" "/new/out.apk/" Merge.TwoNames.before
    Merge.TwoNames.wellFormed
  exact ⟨Merge.TwoNames.wellFormed, (hatomic.1 _).mp (by rw [Merge.TwoNames.fails])⟩

/-- A merge that fails can leave a directory where it looked for its scratch space: the one that was
made for the output. -/
theorem failed_merge_leaves_directory :
    ∃ e after, (mergeContainer none "/in.apks" "/new/out.apk/").runIn Merge.TwoNames.before
        = (.error e, after) ∧
      (Merge.TwoNames.before.entriesAt Merge.TwoNames.before.temporary).map Prod.fst = ["in.apks"] ∧
      (after.entriesAt Merge.TwoNames.before.temporary).map Prod.fst = ["in.apks", "new"] := by
  exact ⟨_, _, Merge.TwoNames.fails, rfl, rfl⟩

end SdkEvidence
