import SdkEvidence.Proofs.Analysis.Reconstruct
import SdkEvidence.Proofs.Analysis.Verbatim
import SdkEvidence.Proofs.Package.MergeRun

/-!
# Runs on split containers

A run on a split container gives the report that a run on the merged package gives, but for what the
report says of the run itself (`run_merged`). Both prepare the same package
(`preparesTo_container`), and from there on they end alike (`runIn_alike`). The name of the package
must have an extension, and no setting may name a file in a run's own work directory: without either
the two runs differ (`merged_differs`).
-/
namespace SdkEvidence

open FileSystem

variable {fs after : FileSystem}

namespace InputKind

/-- The kind of a file is known from what its path leads to. -/
theorem detectIn_congr {p : PathText} (hfile : fs.isFile p = true)
    (hresolve : after.resolve p = fs.resolve p) :
    detectIn after p = detectIn fs p := by
  have hfind : after.find? p = fs.find? p := by rw [find?, find?, hresolve]
  have hexists : after.pathExists p = fs.pathExists p := by rw [pathExists, pathExists, hfind]
  have hdir : fs.isDirectory p = false := by
    unfold isFile at hfile
    unfold isDirectory
    split at hfile
    next h => simp [h]
    next => cases hfile
  have hdir' : after.isDirectory p = false := by
    rw [← hdir, isDirectory, isDirectory, hfind]
  have hpackages : containsPackages p after = containsPackages p fs := by
    rw [containsPackages, containsPackages, Extraction.readArchive, Extraction.readArchive,
      hresolve]
  simp only [detectIn, hexists, hdir, hdir', hpackages, if_false, Bool.false_eq_true]

theorem detectIn_package {p : PathText} (hfile : fs.isFile p = true)
    (hextension : (Path.extension? p).map Text.lowered = some "apk") :
    detectIn fs p = .ok .package := by
  obtain ⟨extension, hsome, hlowered⟩ := Option.map_eq_some_iff.mp hextension
  obtain ⟨content, hread, -⟩ := readFile_of_isFile hfile
  obtain ⟨loc, executable, hresolve⟩ := readFile_eq_ok.mp hread
  simp [detectIn, pathExists, isDirectory, find?, hresolve, hsome, hlowered]

end InputKind

/-- What work inside of a directory does not pass through is read as before. -/
theorem FileSystem.readFile_of_outside {top : Location} {p : PathText}
    (hwithin : Within top fs after) (hout : ∀ loc ∈ fs.trail p, ¬top <+: loc) :
    after.readFile p = fs.readFile p := by
  have hresolve : after.resolve p = fs.resolve p :=
    resolve_congr hwithin.current fun d hd => hwithin.outside d (hout d hd)
  simp only [readFile, hresolve]

/-- A split container that is merged into a package is not the place of the package, and it stays as
it was. -/
theorem Merge.resolve_container {merged : FileSystem} {scratch : Option PathText}
    {container m : PathText} {outcome : MergeOutcome} (wf : fs.WellFormed)
    (hmerge : (mergeContainer scratch container m).runIn fs = (.ok outcome, merged))
    (hfile : merged.isFile m = true)
    (hextension : (Path.extension? m).map Text.lowered = some "apk")
    (hkind : InputKind.detectIn fs container = .ok .splitContainer) :
    merged.resolve container = fs.resolve container := by
  obtain ⟨hcurrent, hmerged⟩ := mergeContainer_wellFormed wf hmerge
  have hnot := mergeContainer_output wf hmerge
  obtain ⟨hcontainer, -, -, -, -, -, -, -, -, -, -, hgrown⟩ := mergeContainer_ok wf hmerge
  obtain ⟨content, hread, -⟩ := readFile_of_isFile hcontainer
  obtain ⟨loc, executable, hresolve⟩ := readFile_eq_ok.mp hread
  obtain ⟨package, hreadm, -⟩ := readFile_of_isFile hfile
  obtain ⟨locm, executablem, hresolvem⟩ := readFile_eq_ok.mp hreadm
  obtain ⟨hloc, hget⟩ := resolve_found hresolve
  obtain ⟨hlocm, -⟩ := resolve_found hresolvem
  rw [locate_congr hcurrent] at hlocm
  -- with one location both would have one extension
  have hne : fs.locate container ≠ fs.locate m := by
    intro heq
    have hnames : Path.fileName? container = Path.fileName? m := by
      rw [fileName?_of_file wf hresolve, fileName?_of_file hmerged hresolvem, hloc, hlocm, heq]
    have hpackage : InputKind.detectIn fs container = .ok .package := by
      refine InputKind.detectIn_package hcontainer ?_
      rw [Path.extension?, hnames]
      exact hextension
    rw [hkind] at hpackage
    cases hpackage
  have hkept {d : Location} (hd : fs.get? d ≠ none) (hout : d ≠ fs.locate m) :
      merged.get? d = fs.get? d := by
    rcases hgrown d hout with hsame | ⟨-, hnone, -⟩
    · exact hsame
    · exact absurd hnone hd
  refine resolve_congr hcurrent fun d hd => ?_
  rcases Location.mem_trail_iff_dropLast.mp hd with hd | rfl
  · have hdir := resolve_trail hresolve d hd
    refine hkept (by simp [hdir]) ?_
    rintro rfl
    exact hnot hdir
  · refine hkept ?_ hne
    rw [show Location.reach (fs.start container) (Path.steps container) = loc from hloc.symm, hget]
    simp

namespace Analyzer

/-- A path does not pass through the work directory that a run makes. -/
def OutsideWork (fs : FileSystem) (p : PathText) : Prop :=
  ∀ made mid, fs.makeTemporary fs.temporary workLead .directory = .ok (made, mid) →
    ∀ loc ∈ fs.trail p, ¬made.location <+: loc

/-- The files that settings name. -/
def settingsFiles (c : Configuration) : List PathText :=
  c.libraryDatabase.toList ++ c.competitorList.toList

/-- What a run does with a package or a split container. -/
def work (a : Analyzer) (mode : Mode) (input : PathText) (kind : InputKind) : Action Report := do
  a.decompiler.check
  let parent ← Action.ask FileSystem.temporary
  Action.withTemporary parent workLead a.configuration.keepDirectories (a.runIn mode input kind)

theorem runIn_run {a : Analyzer} {mode : Mode} {input : PathText} {fs : FileSystem}
    {kind : InputKind} (hkind : InputKind.detectIn fs input = .ok kind)
    (hne : kind ≠ .decompiledTree) :
    (a.run mode input).runIn fs = (a.work mode input kind).runIn fs := by
  have hdetect : (InputKind.detect input).runIn fs = (.ok kind, fs) := by
    unfold InputKind.detect
    rw [Action.runIn_bind, Action.runIn_get]
    dsimp only
    rw [hkind]
    rfl
  unfold run
  rw [Action.runIn_bind, hdetect]
  cases kind with
  | decompiledTree => exact absurd rfl hne
  | package => rfl
  | splitContainer => rfl

theorem runIn_work_of_check_error {a : Analyzer} {mode : Mode} {input : PathText}
    {fs : FileSystem} {kind : InputKind} {e : Failure}
    (hcheck : a.decompiler.check.runIn fs = (.error e, fs)) :
    (a.work mode input kind).runIn fs = (.error e, fs) := by
  unfold work
  rw [Action.runIn_bind, hcheck]

/-- Once the decompiler is able to run, a run ends as the work in its directory does. -/
theorem runIn_work_of_check_ok {a : Analyzer} {mode : Mode} {input : PathText} {fs : FileSystem}
    {kind : InputKind} (hcheck : a.decompiler.check.runIn fs = (.ok (), fs)) :
    ((a.work mode input kind).runIn fs).1
      = match fs.makeTemporary fs.temporary workLead .directory with
        | .error e => .error (.ofOsError e)
        | .ok (made, mid) => ((a.runIn mode input kind made.path).runIn mid).1 := by
  unfold work
  rw [Action.runIn_bind, hcheck]
  dsimp only
  rw [Action.runIn_bind, Action.runIn_ask]
  dsimp only
  rw [Action.runIn_withTemporary]
  cases fs.makeTemporary fs.temporary workLead .directory <;> rfl

/-- Settings whose files are read as before are read as before. -/
theorem settings_congr {c : Configuration} {fs after : FileSystem}
    (h : ∀ p ∈ settingsFiles c, after.readFile p = fs.readFile p) :
    Findings.database after c = Findings.database fs c ∧
      Findings.competitors after c = Findings.competitors fs c := by
  have htext {p : PathText} (hp : p ∈ settingsFiles c) : after.readText? p = fs.readText? p := by
    rw [readText?, readText?, readText, readText, h p hp]
  constructor
  · unfold Findings.database
    cases hpath : c.libraryDatabase with
    | none => rfl
    | some p =>
      rw [Option.bind_some, Option.bind_some, htext (by simp [settingsFiles, hpath])]
  · unfold Findings.competitors
    cases hpath : c.competitorList with
    | none => rfl
    | some p =>
      rw [Option.bind_some, Option.bind_some, htext (by simp [settingsFiles, hpath])]

/-- A run works on what can be read in its work directory, where the names that it uses are free.
What is not on the way through the directory is read as before, whatever happens in it. -/
theorem work_directory {merged mid : FileSystem} {seed : Nat} {made : Temporary}
    (wf : merged.WellFormed) (hcount : seed + merged.nodes.length < UInt64.size)
    (hmake : (merged.reseed seed).makeTemporary merged.temporary workLead .directory
      = .ok (made, mid)) :
    mid.seed = seed ∧
      (∀ p bytes, merged.readFile p = .ok bytes → AtWork mid made.path p bytes runNames) ∧
      ∀ after, Within (mid.locate made.path) mid after →
        ∀ p, OutsideWork (merged.reseed seed) p → after.readFile p = merged.readFile p := by
  have hlead : ShortLead workLead := ⟨by decide, by decide, by decide⟩
  have hmade := makeTemporary_ok (by decide) hmake
  obtain ⟨habs, hroom⟩ := room_of_makeTemporary (wf.reseed seed) hlead hcount hmake runNames
  refine ⟨?_, fun p bytes hread => ?_, fun after hwithin p hout => ?_⟩
  · rw [hmade.put, put_seed]
    rfl
  · refine ⟨hmade.wellFormed (wf.reseed seed), habs, ?_, hroom⟩
    refine readFile_of_keeps hmade.current (fun _ _ => hmade.keeps) ?_
    rw [readFile_reseed, hread]
  · rw [hmade.anchored.1] at hwithin
    rw [readFile_of_outside (hmade.within.trans hwithin) (hout made mid hmake), readFile_reseed]

/-- Preparing an input in a work directory ends with a package of the given bytes. -/
def PreparesTo (fs : FileSystem) (work input : PathText) (kind : InputKind) (bytes : ByteArray) :
    Prop :=
  ∃ prepared after, (prepare work input kind).runIn fs = (.ok prepared, after) ∧
    AtWork after work prepared.path bytes ["decompiled", "raw"] ∧
    Within (fs.locate work) fs after

/-- A package is prepared as it is. -/
theorem preparesTo_package {fs : FileSystem} {work package : PathText} {bytes : ByteArray}
    (h : AtWork fs work package bytes runNames) : PreparesTo fs work package .package bytes :=
  ⟨{ path := package, merge := none, stages := [] }, fs, rfl,
    ⟨h.wellFormed, h.absolute, h.read, h.room.mono (by decide)⟩, .refl _ _⟩

/-- A container that was put together somewhere is prepared to the same package. -/
theorem preparesTo_container {fs₀ fs : FileSystem} {scratch₀ container work : PathText}
    {content package : ByteArray} (h₀ : Merge.PutTogether fs₀ scratch₀ container content package)
    (hseed : fs.seed < UInt64.size) (h : AtWork fs work container content runNames) :
    PreparesTo fs work container .splitContainer package := by
  obtain ⟨prepared, after, hrun, hread, hwithin, hroom⟩ :=
    reconstruct_relocated h₀ h.wellFormed h.absolute h.room hseed h.read
  exact ⟨prepared, after, hrun, ⟨hwithin.wellFormed h.wellFormed, h.absolute, hread, hroom⟩,
    hwithin⟩

/-- Two runs that prepare the same package end alike, if the files of the settings that they read at
the end are the same. -/
theorem runIn_alike (a : Analyzer) (later : Timestamp) (mode : Mode) {fs₁ fs₂ : FileSystem}
    {input₁ input₂ work₁ work₂ : PathText} {kind₁ kind₂ : InputKind} {bytes : ByteArray}
    (hd : a.decompiler.GoesByBytes) (h₁ : PreparesTo fs₁ work₁ input₁ kind₁ bytes)
    (h₂ : PreparesTo fs₂ work₂ input₂ kind₂ bytes)
    (hsettings : ∀ after₁ after₂, Within (fs₁.locate work₁) fs₁ after₁ →
      Within (fs₂.locate work₂) fs₂ after₂ →
      Findings.database after₂ a.configuration = Findings.database after₁ a.configuration ∧
        Findings.competitors after₂ a.configuration = Findings.competitors after₁ a.configuration) :
    EndAlike ((a.runIn mode input₁ kind₁ work₁).runIn fs₁).1
      (({ a with moment := later }.runIn mode input₂ kind₂ work₂).runIn fs₂).1 := by
  obtain ⟨prepared₁, mid₁, hrun₁, hwork₁, hwithin₁⟩ := h₁
  obtain ⟨prepared₂, mid₂, hrun₂, hwork₂, hwithin₂⟩ := h₂
  rw [runIn_eq_finish, runIn_eq_finish, Action.runIn_bind, Action.runIn_bind, hrun₁, hrun₂]
  refine finish_alike a later mode hd hwork₁ hwork₂ fun after₁ after₂ hafter₁ hafter₂ => ?_
  rw [locate_congr hwithin₁.current] at hafter₁
  rw [locate_congr hwithin₂.current] at hafter₂
  exact hsettings after₁ after₂ (hwithin₁.trans hafter₁) (hwithin₂.trans hafter₂)

/-- A run whose decompiler leaves the package as it is gives a report, if the package has the
entries of a tree. -/
theorem PreparesTo.reports {fs fs₀ mid : FileSystem} {input tree : PathText} {kind : InputKind}
    {made : Temporary} {bytes : ByteArray} (a : Analyzer) (mode : Mode)
    (hd : a.decompiler = .verbatim)
    (hkind : InputKind.detectIn fs input = .ok kind) (hne : kind ≠ .decompiledTree)
    (hmake : fs.makeTemporary fs.temporary workLead .directory = .ok (made, mid))
    (h : PreparesTo mid made.path input kind bytes) (wf₀ : fs₀.WellFormed)
    (htree : fs₀.isDirectory tree = true) (hpackable : Packable fs₀ tree)
    (hread : Zip.read bytes = .ok ((fs₀.walkPath tree).map WalkedFile.member)) :
    ∃ prepared digest extracted after,
      ((a.run mode input).runIn fs).1
        = .ok (a.finished mode input made.path prepared digest extracted after) ∧
      Within (mid.locate made.path) mid after ∧
      after.isDirectory (Path.join made.path "raw") = true ∧ after.WellFormed ∧
      after.walkPath (Path.join made.path "raw") = fs₀.walkPath tree := by
  obtain ⟨prepared, ready, hprepare, hwork, hwithin⟩ := h
  have hbytes : a.decompiler.GoesByBytes := hd ▸ Decompiler.verbatim_goesByBytes
  have hcheck : a.decompiler.check.runIn fs = (.ok (), fs) := by
    rw [hd]
    rfl
  have hdecompile := Decompiler.runIn_verbatim hwork.ready
  rw [← hd] at hdecompile
  obtain ⟨digest, extracted, after, hrun, hinside, hafter⟩ := hwork.finishes a mode input hbytes
    hdecompile (Decompiler.isFile_verbatimTree hwork.ready) wf₀ htree hpackable hread
  rw [locate_congr hwithin.current] at hinside
  refine ⟨prepared, digest, extracted, after, ?_, hwithin.trans hinside, hafter⟩
  rw [runIn_run hkind hne, runIn_work_of_check_ok hcheck, hmake]
  dsimp only
  rw [runIn_eq_finish, Action.runIn_bind, hprepare]
  exact hrun

/-- A container that was merged is analysed as the merged package is. -/
theorem run_merged (a : Analyzer) (later : Timestamp) (mode : Mode) (scratch : Option PathText)
    (container m : PathText) (fs merged : FileSystem) (outcome : MergeOutcome) (seed₁ seed₂ : Nat)
    (wf : fs.WellFormed)
    (hkind : InputKind.detectIn fs container = .ok .splitContainer)
    (hmerge : (mergeContainer scratch container m).runIn fs = (.ok outcome, merged))
    (hfile : merged.isFile m = true)
    (hextension : (Path.extension? m).map Text.lowered = some "apk")
    (hd : a.decompiler.GoesByBytes)
    (hsettings : ∀ p ∈ settingsFiles a.configuration,
      OutsideWork (merged.reseed seed₁) p ∧ OutsideWork (merged.reseed seed₂) p)
    (hcount₁ : seed₁ + merged.nodes.length < UInt64.size)
    (hcount₂ : seed₂ + merged.nodes.length < UInt64.size) :
    EndAlike ((a.run mode container).runIn (merged.reseed seed₁)).1
      (({ a with moment := later }.run mode m).runIn (merged.reseed seed₂)).1 := by
  obtain ⟨-, wf'⟩ := Merge.mergeContainer_wellFormed wf hmerge
  have hresolve := Merge.resolve_container wf hmerge hfile hextension hkind
  obtain ⟨hisFile, -⟩ := Merge.mergeContainer_ok wf hmerge
  -- the package that was put together, from the container that is still there
  obtain ⟨fs₀, scratch₀, content, package, hput, hcontent, hpackage⟩ :=
    Merge.putTogether_of_merge wf hmerge hfile
  have hread : merged.readFile container = .ok content := by
    rw [readFile, hresolve]
    exact hcontent
  -- both inputs are taken, and the decompiler is able to run or is not
  have hkind₁ : InputKind.detectIn (merged.reseed seed₁) container = .ok .splitContainer := by
    rw [InputKind.detectIn_congr hisFile ((resolve_reseed seed₁ container).trans hresolve), hkind]
  have hkind₂ : InputKind.detectIn (merged.reseed seed₂) m = .ok .package := by
    rw [InputKind.detectIn_congr hfile (resolve_reseed seed₂ m),
      InputKind.detectIn_package hfile hextension]
  rw [runIn_run hkind₁ (by decide), runIn_run hkind₂ (by decide)]
  obtain ⟨verdict, hcheck⟩ := hd.check
  cases verdict with
  | error e =>
    rw [runIn_work_of_check_error (hcheck _),
      runIn_work_of_check_error (a := { a with moment := later }) (hcheck _)]
    exact Or.inl ⟨e, e, rfl, rfl⟩
  | ok u =>
    rw [runIn_work_of_check_ok (hcheck _),
      runIn_work_of_check_ok (a := { a with moment := later }) (hcheck _)]
    -- both work directories are made, or none is
    rw [reseed_temporary, reseed_temporary]
    rcases merged.makeTemporary_reseed merged.temporary workLead .directory seed₁ seed₂ with
      ⟨e, hmake₁, hmake₂⟩ | ⟨made₁, mid₁, made₂, mid₂, hmake₁, hmake₂⟩
    · rw [hmake₁, hmake₂]
      exact Or.inl ⟨_, _, rfl, rfl⟩
    · rw [hmake₁, hmake₂]
      dsimp only
      obtain ⟨hseed₁, hwork₁, hread₁⟩ := work_directory wf' hcount₁ hmake₁
      obtain ⟨-, hwork₂, hread₂⟩ := work_directory wf' hcount₂ hmake₂
      have hprepared₁ : PreparesTo mid₁ made₁.path container .splitContainer package :=
        preparesTo_container hput (by omega) (hwork₁ container content hread)
      have hprepared₂ : PreparesTo mid₂ made₂.path m .package package :=
        preparesTo_package (hwork₂ m package hpackage)
      refine runIn_alike a later mode hd hprepared₁ hprepared₂ fun after₁ after₂ hin₁ hin₂ => ?_
      refine settings_congr fun p hp => ?_
      rw [hread₁ after₁ hin₁ p (hsettings p hp).1, hread₂ after₂ hin₂ p (hsettings p hp).2]

end Analyzer

/-!
## Runs on the container of two names
-/

namespace Merge.TwoNames

/-- The file of the merged package. -/
def mergedFile : WalkedFile := { way := ["p.so"], content := dotted.content }

/-- A tree that is packed to the merged package. -/
def mergedTree : FileSystem :=
  { nodes := [(["t"], .directory), (["t", "p.so"], .file dotted.content false)]
    current := [], temporary := "/" }

set_option maxRecDepth 10000

theorem mergedTree_wellFormed : mergedTree.WellFormed := by
  decide +kernel

theorem walk_mergedTree : mergedTree.walkPath "/t" = [mergedFile] := by
  have hfind : mergedTree.find? "/t" = some (["t"], .directory) := by rfl
  rw [walkPath_of_sorted hfind (by decide +kernel)]
  rfl

theorem mergedTree_packable : Packable mergedTree "/t" := by
  intro file hfile
  rw [walk_mergedTree, List.mem_singleton] at hfile
  subst hfile
  refine ⟨by decide, by decide +kernel, fun name hlast => ?_⟩
  cases hlast
  decide +kernel

theorem read_merged : Zip.read merged = .ok ((mergedTree.walkPath "/t").map WalkedFile.member) := by
  have hsmall : ∀ file ∈ [mergedFile].map Recompression.entry, file.method = .stored ∧
      (Utf8.encode file.name).size < 65536 ∧ file.content.size < 4294967296 ∧
      file.nameRead = file.name := by decide +kernel
  rw [walk_mergedTree]
  show Zip.read (Zip.write ([mergedFile].map Recompression.entry))
    = .ok (([mergedFile].map Recompression.entry).map Zip.NewFile.toMember)
  refine Zip.read_write (fun file hfile => ?_) ?_ ?_ ?_
  · obtain ⟨hstored, hname, hcontent, hnamed⟩ := hsmall file hfile
    exact Zip.NewFile.readable_of_stored hstored hname hcontent hnamed
  all_goals decide +kernel

/-- A merge to a name that begins with its only dot. -/
theorem merges_hidden : (mergeContainer none "/in.apks" "/.apk").runIn before
    = (.ok (assembly.outcome "/.apk" (sizeAt packed (assembledIn made.path))),
        before.put [".apk"] (.file merged false)) := by
  have hpublish : (publish (assembledIn made.path) "/.apk").runIn packed
      = (.ok (), packed.put [".apk"] (.file merged false)) := by rfl
  have hrun := runIn_mergeIn_of_steps assembled size hpublish
  have hremoved : (packed.put [".apk"] (.file merged false)).removeTree made.location
      = before.put [".apk"] (.file merged false) := by rfl
  rw [← hremoved]
  exact runIn_mergeContainer_of_steps rfl scratch hrun

theorem container_kind : InputKind.detectIn before "/in.apks" = .ok .splitContainer := by
  rfl

theorem wellFormed_put {name : String} (hname : name ∈ ["out.apk", ".apk"]) :
    (before.put [name] (.file merged false)).WellFormed := by
  simp only [List.mem_cons, List.not_mem_nil, or_false] at hname
  have hroot : before.get? [] = some .directory := rfl
  rcases hname with rfl | rfl
  all_goals exact wellFormed.put hroot (by constructor <;> decide) (Or.inr (by decide))

/-- The work directory of the first run. -/
def firstWork : PathText := "/sdkprobe-run-000000"

/-- A run on the container gives a report, whichever of the two names the merged package has. -/
theorem reports_container (a : Analyzer) (mode : Mode) (hd : a.decompiler = .verbatim)
    {name : String} (hname : name ∈ ["out.apk", ".apk"]) :
    ∃ prepared digest extracted after,
      ((a.run mode "/in.apks").runIn (before.put [name] (.file merged false))).1
        = .ok (a.finished mode "/in.apks" firstWork prepared digest extracted after) ∧
      after.isDirectory (Path.join firstWork "raw") = true ∧ after.WellFormed ∧
      after.walkPath (Path.join firstWork "raw") = [mergedFile] := by
  have wf := wellFormed_put hname
  obtain ⟨fs, hfs⟩ : ∃ fs, fs = before.put [name] (.file merged false) := ⟨_, rfl⟩
  obtain ⟨hcount, hkind, hread, mid, hmake⟩ : fs.seed + fs.nodes.length < UInt64.size ∧
      InputKind.detectIn fs "/in.apks" = .ok .splitContainer ∧
      fs.readFile "/in.apks" = .ok container ∧
      ∃ mid, fs.makeTemporary fs.temporary Analyzer.workLead .directory
        = .ok ({ path := firstWork, location := ["sdkprobe-run-000000"] }, mid) := by
    simp only [List.mem_cons, List.not_mem_nil, or_false] at hname
    rcases hname with rfl | rfl
    all_goals exact hfs ▸ ⟨by decide, rfl, rfl, _, rfl⟩
  rw [← hfs] at wf ⊢
  obtain ⟨hseed, hwork, -⟩ :=
    Analyzer.work_directory wf hcount (show (fs.reseed fs.seed).makeTemporary _ _ _ = _ from hmake)
  -- the container is prepared to the package that it is merged to
  have hput : PutTogether scratched made.path "/in.apks" container merged :=
    { wellFormed := (makeTemporary_ok (by decide) scratch).wellFormed wellFormed
      room := room_of_assemble wellFormed (by decide) scratch assembled
      read := by rfl
      assembles := ⟨assembly, packed, assembled, by rfl⟩ }
  have hprepared : Analyzer.PreparesTo mid firstWork "/in.apks" .splitContainer merged :=
    Analyzer.preparesTo_container hput (by omega) (hwork _ _ hread)
  obtain ⟨prepared, digest, extracted, after, hrun, -, hdir, hafter, hwalk⟩ :=
    hprepared.reports a mode hd hkind (by decide) hmake mergedTree_wellFormed (by rfl)
      mergedTree_packable read_merged
  rw [walk_mergedTree] at hwalk
  exact ⟨prepared, digest, extracted, after, hrun, hdir, hafter, hwalk⟩

/-- The merged package is extracted to a file that can be read. -/
theorem readFile_raw {after : FileSystem} {work : PathText}
    (hdir : after.isDirectory (Path.join work "raw") = true) (wf : after.WellFormed)
    (hwalk : after.walkPath (Path.join work "raw") = [mergedFile]) :
    after.readFile (Path.join (Path.join work "raw") "p.so") = .ok dotted.content := by
  have hfind := isDirectory_eq_true.mp hdir
  have hmem : mergedFile ∈ after.walkPath (Path.join work "raw") :=
    hwalk ▸ List.mem_singleton_self _
  rw [walkPath, hfind] at hmem
  dsimp only at hmem
  rw [mem_walk wf] at hmem
  obtain ⟨executable, hget⟩ := contentAt?_eq_some.mp hmem
  have hresolve := resolve_join_name hfind (show Storable "p.so" by decide)
  rw [show ["p.so"] = mergedFile.way from rfl, hget] at hresolve
  exact readFile_eq_ok.mpr ⟨_, executable, hresolve⟩

end Merge.TwoNames

namespace Analyzer

/-- Default settings but for the competitor list, with a decompiler that leaves the package as it
is. -/
def verbatim (competitorList : Option PathText) : Analyzer :=
  { configuration := { competitorList }
    decompiler := .verbatim
    moment := Copied.noon }

/-- A file in the work directory of the first run. -/
def insideFirst : PathText := "/sdkprobe-run-000000/raw/p.so"

theorem competitors_first (mode : Mode) :
    ∃ report, (((verbatim (some insideFirst)).run mode "/in.apks").runIn
        (Merge.TwoNames.before.put ["out.apk"] (.file Merge.TwoNames.merged false))).1
          = .ok report ∧
      report.competitorsChecked = 1 := by
  obtain ⟨prepared, digest, extracted, after, hrun, hdir, wf, hwalk⟩ :=
    Merge.TwoNames.reports_container (verbatim (some insideFirst)) mode rfl
      (show "out.apk" ∈ ["out.apk", ".apk"] by decide)
  have hread : after.readFile insideFirst = .ok Merge.TwoNames.dotted.content :=
    Merge.TwoNames.readFile_raw hdir wf hwalk
  refine ⟨_, hrun, ?_⟩
  have htext : after.readText? insideFirst = some "2" := by
    have hdecode : Utf8.decode? Merge.TwoNames.dotted.content = some "2" := by decide +kernel
    rw [readText?, readText, hread]
    dsimp only
    rw [hdecode]
    rfl
  show (Findings.competitors after { competitorList := some insideFirst }).names.length = 1
  rw [Findings.competitors, Option.bind_some, htext]
  rfl

/-- A run on the package in a work directory of another name. -/
theorem competitors_second (mode : Mode) :
    ∃ report, (((verbatim (some insideFirst)).run mode "/out.apk").runIn
        ((Merge.TwoNames.before.put ["out.apk"] (.file Merge.TwoNames.merged false)).reseed 1)).1
          = .ok report ∧
      report.competitorsChecked = 0 := by
  have wf := Merge.TwoNames.wellFormed_put (show "out.apk" ∈ ["out.apk", ".apk"] by decide)
  obtain ⟨fs, hfs⟩ : ∃ fs, fs = Merge.TwoNames.before.put ["out.apk"]
    (.file Merge.TwoNames.merged false) := ⟨_, rfl⟩
  have hkind : InputKind.detectIn (fs.reseed 1) "/out.apk" = .ok .package := hfs ▸ rfl
  have hread : fs.readFile "/out.apk" = .ok Merge.TwoNames.merged := hfs ▸ rfl
  have hmissing : fs.readFile insideFirst = .error .notFound := hfs ▸ rfl
  have hcount : 1 + fs.nodes.length < UInt64.size := hfs ▸ by decide
  obtain ⟨made, mid, hmake, hmade⟩ : ∃ made mid,
      (fs.reseed 1).makeTemporary fs.temporary workLead .directory = .ok (made, mid) ∧
      made.location = ["sdkprobe-run-000001"] := hfs ▸ ⟨_, _, rfl, rfl⟩
  have hout : OutsideWork (fs.reseed 1) insideFirst := by
    intro made' mid' hmake'
    cases hmake.symm.trans hmake'
    rw [hmade, hfs]
    decide
  rw [← hfs] at wf ⊢
  obtain ⟨-, hwork, hkept⟩ := work_directory wf hcount hmake
  obtain ⟨prepared, digest, extracted, after, hrun, hwithin, -⟩ :=
    (preparesTo_package (hwork _ _ hread)).reports (verbatim (some insideFirst)) mode rfl hkind
      (by decide) hmake Merge.TwoNames.mergedTree_wellFormed (by rfl)
      Merge.TwoNames.mergedTree_packable Merge.TwoNames.read_merged
  refine ⟨_, hrun, ?_⟩
  have htext : after.readText? insideFirst = none := by
    rw [readText?, readText, hkept after hwithin insideFirst hout, hmissing]
    rfl
  show (Findings.competitors after { competitorList := some insideFirst }).names.length = 0
  rw [Findings.competitors, Option.bind_some, htext]
  rfl

/-- The container of two names gives a report, and the package that it is merged to gives the same
one. -/
theorem run_merged_two_names : ∃ report₁ report₂,
    (mergeContainer none "/in.apks" "/out.apk").runIn Merge.TwoNames.before
      = (.ok (Merge.TwoNames.assembly.outcome "/out.apk"
          (Merge.sizeAt Merge.TwoNames.packed (Merge.assembledIn Merge.TwoNames.made.path))),
        Merge.TwoNames.before.put ["out.apk"] (.file Merge.TwoNames.merged false)) ∧
    (((verbatim none).run (.detection ["p"]) "/in.apks").runIn
      (Merge.TwoNames.before.put ["out.apk"] (.file Merge.TwoNames.merged false))).1 = .ok report₁ ∧
    (({ verbatim none with moment := Copied.evening }.run (.detection ["p"]) "/out.apk").runIn
      (Merge.TwoNames.before.put ["out.apk"] (.file Merge.TwoNames.merged false))).1 = .ok report₂ ∧
    report₂ = { report₁ with
      generatedAt := report₂.generatedAt
      source := report₂.source
      merge := report₂.merge
      stages := report₂.stages } := by
  have halike := run_merged (verbatim none) Copied.evening (.detection ["p"]) none "/in.apks"
    "/out.apk" Merge.TwoNames.before _ _ 0 0 Merge.TwoNames.wellFormed Merge.TwoNames.container_kind
    Merge.TwoNames.merges (by rfl) (by decide) Decompiler.verbatim_goesByBytes
    (by simp [settingsFiles, verbatim]) (by decide) (by decide)
  obtain ⟨_, _, _, _, hreport, -⟩ := Merge.TwoNames.reports_container (verbatim none)
    (.detection ["p"]) rfl (show "out.apk" ∈ ["out.apk", ".apk"] by decide)
  rcases halike with ⟨e, -, herror, -⟩ | ⟨report₁, report₂, hreport₁, hreport₂, hsame⟩
  · cases hreport.symm.trans herror
  · exact ⟨report₁, report₂, Merge.TwoNames.merges, hreport₁, hreport₂, hsame⟩

/-- A container gives a report and the package that it is merged to is refused, if the name of the
package begins with its only dot. A container and its package give different reports, if a setting
names a file in the work directory of one of the runs. -/
theorem merged_differs :
    InputKind.detectIn Merge.TwoNames.before "/in.apks" = .ok .splitContainer ∧
    Decompiler.verbatim.GoesByBytes ∧
    (∃ outcome merged report,
      (mergeContainer none "/in.apks" "/.apk").runIn Merge.TwoNames.before
        = (.ok outcome, merged) ∧
      merged.isFile "/.apk" = true ∧ "/.apk".endsWith ".apk" = true ∧
      (((verbatim none).run .inventory "/in.apks").runIn merged).1 = .ok report ∧
      (((verbatim none).run .inventory "/.apk").runIn merged).1
        = .error (.invalidInput "Unsupported input type: /.apk")) ∧
    ∃ outcome merged report₁ report₂,
      (mergeContainer none "/in.apks" "/out.apk").runIn Merge.TwoNames.before
        = (.ok outcome, merged) ∧
      (((verbatim (some insideFirst)).run .inventory "/in.apks").runIn merged).1 = .ok report₁ ∧
      (((verbatim (some insideFirst)).run .inventory "/out.apk").runIn (merged.reseed 1)).1
        = .ok report₂ ∧
      report₁.competitorsChecked = 1 ∧ report₂.competitorsChecked = 0 := by
  obtain ⟨_, _, _, _, hreport, -⟩ := Merge.TwoNames.reports_container (verbatim none) .inventory rfl
    (show ".apk" ∈ ["out.apk", ".apk"] by decide)
  obtain ⟨report₁, hreport₁, hone⟩ := competitors_first .inventory
  obtain ⟨report₂, hreport₂, hnone⟩ := competitors_second .inventory
  exact ⟨Merge.TwoNames.container_kind, Decompiler.verbatim_goesByBytes,
    ⟨_, _, _, Merge.TwoNames.merges_hidden, by rfl, by decide +kernel, hreport, by rfl⟩,
    ⟨_, _, report₁, report₂, Merge.TwoNames.merges, hreport₁, hreport₂, hone, hnone⟩⟩

end Analyzer
end SdkEvidence
