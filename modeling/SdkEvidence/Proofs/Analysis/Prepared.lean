import SdkEvidence.Proofs.Analysis.Trees
import SdkEvidence.Proofs.FileSystem.Room
import SdkEvidence.Proofs.Package.MergedPackage
import SdkEvidence.Proofs.Package.Relocation
import SdkEvidence.Proofs.Package.RoundTrip

/-!
# Runs on prepared packages

What a run does with a package depends on its bytes alone, if the decompiler's work does: two runs
on packages with the same bytes, in two work directories, end alike and give the same report but for
what the report says of the run itself (`finish_alike`). A package that holds a tree is extracted to
that tree, and gives a report as soon as it is decompiled (`AtWork.finishes`).
-/
namespace SdkEvidence

open FileSystem

namespace Decompiler

/-- A package can be read, and nothing is where it shall be decompiled to. -/
structure Ready (fs : FileSystem) (package out : PathText) (bytes : ByteArray) : Prop where
  wellFormed : fs.WellFormed
  read : fs.readFile package = .ok bytes
  free : fs.resolve out = .ok (.free (fs.locate out) false)

/-- A decompiler that goes by the bytes of the package. Whether it is able to run does not depend on
the files. It succeeds or not and leaves one tree or another according to the bytes, wherever the
package is and wherever the tree shall be, and it works inside of that place. -/
structure GoesByBytes (d : Decompiler) : Prop where
  check : ∃ verdict, ∀ fs, d.check.runIn fs = (verdict, fs)
  alike : ∀ {fs₁ fs₂ after₁ after₂ : FileSystem} {package₁ package₂ out₁ out₂ : PathText}
    {bytes : ByteArray} {outcome₁ outcome₂ : Except Failure Unit},
    Ready fs₁ package₁ out₁ bytes → Ready fs₂ package₂ out₂ bytes →
    (d.decompile package₁ out₁).runIn fs₁ = (outcome₁, after₁) →
    (d.decompile package₂ out₂).runIn fs₂ = (outcome₂, after₂) →
    outcome₂.toOption = outcome₁.toOption ∧
      SameTree after₁ (fs₁.locate out₁) after₂ (fs₂.locate out₂)
  within : ∀ {fs after : FileSystem} {package out : PathText} {bytes : ByteArray}
    {outcome : Except Failure Unit}, Ready fs package out bytes →
    (d.decompile package out).runIn fs = (outcome, after) → Within (fs.locate out) fs after

end Decompiler

theorem runIn_verifyDecompiled (out : PathText) (fs : FileSystem) :
    (verifyDecompiled out).runIn fs
      = (if fs.isFile (Path.join out manifestName) then .ok ()
        else .error (.decompilation ("no " ++ manifestName ++ " in " ++ out)), fs) := by
  unfold verifyDecompiled
  rw [Action.runIn_bind, Action.runIn_ask]
  dsimp only
  cases fs.isFile (Path.join out manifestName) <;> rfl

namespace Analyzer

/-- The part of a run that comes after the package is prepared. -/
def finish (a : Analyzer) (mode : Mode) (input work : PathText) (prepared : PreparedPackage) :
    Action Report := do
  let digest ← Action.ask fun fs => (fs.digest prepared.path).toOption
  let decompiled := Path.join work "decompiled"
  a.decompiler.decompile prepared.path decompiled
  verifyDecompiled decompiled
  let raw := Path.join work "raw"
  let extracted ← extractRaw prepared.path raw
  let found ← a.examine mode decompiled raw
  let prepared := { prepared with
    stages := prepared.stages ++ [.ofItems "Decompile" 1, .ofItems "Raw extraction" extracted] }
  pure (a.report mode input a.decompiler.name (some prepared) digest found)

theorem runIn_eq_finish (a : Analyzer) (mode : Mode) (input work : PathText) (kind : InputKind) :
    a.runIn mode input kind work = prepare work input kind >>= a.finish mode input work := by
  rfl

/-- The report that a run on a prepared package ends with. -/
def finished (a : Analyzer) (mode : Mode) (input work : PathText) (prepared : PreparedPackage)
    (digest : Option String) (extracted : Nat) (fs : FileSystem) : Report :=
  a.report mode input a.decompiler.name
    (some { prepared with
      stages := prepared.stages ++
        [.ofItems "Decompile" 1, .ofItems "Raw extraction" extracted] })
    digest
    (Findings.ofTrees fs a.configuration mode (Path.join work "decompiled") (Path.join work "raw"))

/-- How a run on a prepared package goes on once the package is decompiled. -/
def concluded (a : Analyzer) (mode : Mode) (input work : PathText) (prepared : PreparedPackage)
    (digest : Option String) (mid : FileSystem) : Except Failure Report × FileSystem :=
  if mid.isFile (Path.join (Path.join work "decompiled") manifestName) then
    match extractInto prepared.path (Path.join work "raw") mid with
    | (after, .error e) => (.error (.invalidInput e.message), after)
    | (after, .ok done) =>
        (if after.isDirectory (Path.join work "decompiled") then
          .ok (a.finished mode input work prepared digest done.written after)
        else .error (.invalidInput
          ("Decompiled tree does not exist: " ++ Path.join work "decompiled")), after)
  else
    (.error (.decompilation ("no " ++ manifestName ++ " in " ++ Path.join work "decompiled")), mid)

theorem runIn_finish (a : Analyzer) (mode : Mode) (input work : PathText)
    (prepared : PreparedPackage) (fs : FileSystem) :
    (a.finish mode input work prepared).runIn fs
      = match (a.decompiler.decompile prepared.path (Path.join work "decompiled")).runIn fs with
        | (.error e, after) => (.error e, after)
        | (.ok _, mid) =>
            a.concluded mode input work prepared (fs.digest prepared.path).toOption mid := by
  unfold finish concluded
  rw [Action.runIn_bind, Action.runIn_ask]
  dsimp only
  rw [Action.runIn_bind]
  rcases (a.decompiler.decompile prepared.path (Path.join work "decompiled")).runIn fs
    with ⟨decompiled, mid⟩
  cases decompiled with
  | error e => rfl
  | ok u =>
    dsimp only
    rw [Action.runIn_bind, runIn_verifyDecompiled]
    cases mid.isFile (Path.join (Path.join work "decompiled") manifestName) with
    | false => rfl
    | true =>
      simp only [if_true]
      unfold extractRaw
      rw [Action.runIn_bind, Action.runIn_bind, Action.runIn_step]
      rcases extractInto prepared.path (Path.join work "raw") mid with ⟨after, extracted⟩
      cases extracted with
      | error e => rfl
      | ok done =>
        dsimp only
        rw [Action.runIn_pure]
        dsimp only
        rw [Action.runIn_bind, runIn_examine]
        cases after.isDirectory (Path.join work "decompiled") <;> rfl

variable {fs fs₁ fs₂ after after₁ : FileSystem}
  {work work₁ work₂ package package₁ package₂ : PathText}
  {bytes : ByteArray} {names : List String}

/-- A package can be read beside a work directory in which the given names are free. -/
structure AtWork (fs : FileSystem) (work package : PathText) (bytes : ByteArray)
    (names : List String) : Prop where
  wellFormed : fs.WellFormed
  absolute : Path.isAbsolute work = true
  read : fs.readFile package = .ok bytes
  room : Room fs work names

namespace AtWork

theorem of_within {less : List String} {name : String} (h : AtWork fs work package bytes names)
    (hname : name ∈ names) (hwithin : Within (fs.locate work ++ [name]) fs after)
    (hless : ∀ other ∈ less, other ∈ names ∧ name ≠ other) :
    AtWork after work package bytes less := by
  refine ⟨hwithin.wellFormed h.wellFormed, h.absolute, ?_, h.room.of_within hwithin hless⟩
  refine readFile_of_keeps hwithin.current (fun loc node hget => ?_) h.read
  rw [hwithin.outside, hget]
  rintro ⟨way, rfl⟩
  rw [h.wellFormed.get?_below_absent (h.room.absent name hname)] at hget
  cases hget

theorem ready (h : AtWork fs work package bytes ["decompiled", "raw"]) :
    Decompiler.Ready fs package (Path.join work "decompiled") bytes := by
  refine ⟨h.wellFormed, h.read, ?_⟩
  have hname : Storable "decompiled" := by decide
  rw [locate_join_name fs work hname.isName]
  exact resolve_free_join_name h.room.isDirectory hname (h.room.absent _ (by decide))

/-- A package that is extracted beside one decompiled tree is extracted beside the same tree
elsewhere, and what is there then is the same. -/
theorem extract_twins (h₁ : AtWork fs₁ work₁ package₁ bytes ["raw"])
    (h₂ : AtWork fs₂ work₂ package₂ bytes ["raw"])
    (htrees : Twins fs₁ (Path.join work₁ "decompiled") fs₂ (Path.join work₂ "decompiled"))
    {done : Extraction}
    (hrun : extractInto package₁ (Path.join work₁ "raw") fs₁ = (after₁, .ok done)) :
    ∃ after₂, extractInto package₂ (Path.join work₂ "raw") fs₂ = (after₂, .ok done) ∧
      TwinPackages after₁ (Path.join work₁ "decompiled") (Path.join work₁ "raw")
        after₂ (Path.join work₂ "decompiled") (Path.join work₂ "raw") ∧
      Within (fs₁.locate work₁) fs₁ after₁ ∧ Within (fs₂.locate work₂) fs₂ after₂ := by
  have hraw : Storable "raw" := by decide
  have hdecompiled : IsName "decompiled" := by decide
  obtain ⟨after₂, hrun₂, hraws, hwithin₁, hwithin₂⟩ := extractInto_name_twins h₁.wellFormed
    h₂.wellFormed h₁.room h₂.room hraw (by decide)
    (fun content hcontent => by rw [h₂.read, ← h₁.read, hcontent]) hrun
  have hapart (fs : FileSystem) (work : PathText) (way : Location) :
      ¬fs.locate work ++ ["raw"] <+: fs.locate (Path.join work "decompiled") ++ way := by
    rw [locate_join_name fs work hdecompiled, List.append_assoc, List.prefix_append_right_inj]
    simp
  have hdifferent (work : PathText) :
      Path.same (Path.join work "decompiled") (Path.join work "raw") ≠ true := by
    rw [Path.not_same_join_name hdecompiled hraw.isName (by decide)]
    decide
  refine ⟨after₂, hrun₂, ?_, hwithin₁.mono (List.prefix_append _ _),
    hwithin₂.mono (List.prefix_append _ _)⟩
  exact
    { wellFormed₁ := hwithin₁.wellFormed h₁.wellFormed
      wellFormed₂ := hwithin₂.wellFormed h₂.wellFormed
      decompiled := htrees.of_apart hwithin₁ hwithin₂ (hapart fs₁ work₁) (hapart fs₂ work₂)
      raw := hraws
      one₁ := fun hsame => absurd hsame (hdifferent work₁)
      one₂ := fun hsame => absurd hsame (hdifferent work₂) }

/-- Both extractions fail, or both leave the package beside the same tree. -/
theorem extract_alike (h₁ : AtWork fs₁ work₁ package₁ bytes ["raw"])
    (h₂ : AtWork fs₂ work₂ package₂ bytes ["raw"])
    (htrees : Twins fs₁ (Path.join work₁ "decompiled") fs₂ (Path.join work₂ "decompiled")) :
    (∃ after₁ after₂ e₁ e₂, extractInto package₁ (Path.join work₁ "raw") fs₁ = (after₁, .error e₁) ∧
      extractInto package₂ (Path.join work₂ "raw") fs₂ = (after₂, .error e₂)) ∨
    ∃ after₁ after₂ done, extractInto package₁ (Path.join work₁ "raw") fs₁ = (after₁, .ok done) ∧
      extractInto package₂ (Path.join work₂ "raw") fs₂ = (after₂, .ok done) ∧
      TwinPackages after₁ (Path.join work₁ "decompiled") (Path.join work₁ "raw")
        after₂ (Path.join work₂ "decompiled") (Path.join work₂ "raw") ∧
      Within (fs₁.locate work₁) fs₁ after₁ ∧ Within (fs₂.locate work₂) fs₂ after₂ := by
  rcases hrun₁ : extractInto package₁ (Path.join work₁ "raw") fs₁ with ⟨after₁, outcome₁⟩
  rcases hrun₂ : extractInto package₂ (Path.join work₂ "raw") fs₂ with ⟨after₂, outcome₂⟩
  cases outcome₁ with
  | ok done =>
    obtain ⟨_, hrun, htwins⟩ := h₁.extract_twins h₂ htrees hrun₁
    cases hrun₂.symm.trans hrun
    exact Or.inr ⟨after₁, after₂, done, rfl, rfl, htwins⟩
  | error e₁ =>
    cases outcome₂ with
    | error e₂ => exact Or.inl ⟨after₁, after₂, e₁, e₂, rfl, rfl⟩
    | ok done =>
      obtain ⟨_, hrun, -⟩ := h₂.extract_twins h₁ htrees.symm hrun₂
      cases hrun₁.symm.trans hrun

end AtWork

/-- Two runs both fail, or give reports that differ only in what they say of the run itself. -/
def EndAlike (run₁ run₂ : Except Failure Report) : Prop :=
  (∃ e₁ e₂, run₁ = .error e₁ ∧ run₂ = .error e₂) ∨
    ∃ report₁ report₂, run₁ = .ok report₁ ∧ run₂ = .ok report₂ ∧
      report₂ = { report₁ with
        generatedAt := report₂.generatedAt
        source := report₂.source
        merge := report₂.merge
        stages := report₂.stages }

/-- What was decompiled counts alike at both places: it is no directory at either, or the trees are
the same. -/
theorem decompiled_twins (h₁ : AtWork fs₁ work₁ package₁ bytes names)
    (h₂ : AtWork fs₂ work₂ package₂ bytes names)
    (hsame : SameTree fs₁ (fs₁.locate (Path.join work₁ "decompiled")) fs₂
      (fs₂.locate (Path.join work₂ "decompiled"))) :
    Twins fs₁ (Path.join work₁ "decompiled") fs₂ (Path.join work₂ "decompiled") ∨
      (fs₁.isFile (Path.join (Path.join work₁ "decompiled") manifestName) = false ∧
        fs₂.isFile (Path.join (Path.join work₂ "decompiled") manifestName) = false) := by
  have hname : Storable "decompiled" := by decide
  have hdirectory {fs : FileSystem} {work package : PathText}
      (h : AtWork fs work package bytes names) :
      fs.isDirectory (Path.join work "decompiled") = true
        ↔ fs.get? (fs.locate (Path.join work "decompiled")) = some .directory := by
    rw [isDirectory_join_name (isDirectory_eq_true.mp h.room.isDirectory) hname,
      locate_join_name fs work hname.isName]
  have hnone {fs : FileSystem} {work : PathText}
      (h : ¬fs.isDirectory (Path.join work "decompiled") = true) :
      fs.isFile (Path.join (Path.join work "decompiled") manifestName) = false := by
    rw [← Bool.not_eq_true]
    intro hfile
    obtain ⟨content, hread, -⟩ := readFile_of_isFile hfile
    obtain ⟨loc, executable, hresolve⟩ := readFile_eq_ok.mp hread
    exact h (isDirectory_of_join (Path.join_ne_empty (by decide)) (by decide) hresolve)
  have htop := hsame []
  rw [List.append_nil, List.append_nil] at htop
  by_cases hdir : fs₁.isDirectory (Path.join work₁ "decompiled") = true
  · refine Or.inl ⟨hdir, ?_, hsame⟩
    rw [hdirectory h₂, htop, ← hdirectory h₁]
    exact hdir
  · refine Or.inr ⟨hnone hdir, hnone fun hdir' => hdir ?_⟩
    rwa [hdirectory h₂, htop, ← hdirectory h₁] at hdir'

/-- Two runs that have decompiled packages with the same bytes alike end alike, if the files of the
settings that they read at the end are the same. -/
theorem concluded_alike (a : Analyzer) (later : Timestamp) (mode : Mode)
    {input₁ input₂ : PathText} {prepared₁ prepared₂ : PreparedPackage} (digest : Option String)
    (h₁ : AtWork fs₁ work₁ prepared₁.path bytes ["raw"])
    (h₂ : AtWork fs₂ work₂ prepared₂.path bytes ["raw"])
    (hsame : SameTree fs₁ (fs₁.locate (Path.join work₁ "decompiled")) fs₂
      (fs₂.locate (Path.join work₂ "decompiled")))
    (hsettings : ∀ after₁ after₂, Within (fs₁.locate work₁) fs₁ after₁ →
      Within (fs₂.locate work₂) fs₂ after₂ →
      Findings.database after₂ a.configuration = Findings.database after₁ a.configuration ∧
        Findings.competitors after₂ a.configuration = Findings.competitors after₁ a.configuration) :
    EndAlike (a.concluded mode input₁ work₁ prepared₁ digest fs₁).1
      ({ a with moment := later }.concluded mode input₂ work₂ prepared₂ digest fs₂).1 := by
  unfold concluded
  rcases decompiled_twins h₁ h₂ hsame with htrees | ⟨hnone₁, hnone₂⟩
  swap
  · rw [hnone₁, hnone₂]
    exact Or.inl ⟨_, _, rfl, rfl⟩
  rw [htrees.isFile (q := manifestName) (by decide)]
  split
  swap
  next => exact Or.inl ⟨_, _, rfl, rfl⟩
  rcases h₁.extract_alike h₂ htrees with ⟨_, _, e₁, e₂, hraw₁, hraw₂⟩
    | ⟨after₁, after₂, done, hraw₁, hraw₂, htwins, hlast₁, hlast₂⟩
  · rw [hraw₁, hraw₂]
    exact Or.inl ⟨_, _, rfl, rfl⟩
  rw [hraw₁, hraw₂]
  dsimp only
  rw [if_pos htwins.decompiled.first, if_pos htwins.decompiled.second]
  obtain ⟨hdatabase, hcompetitors⟩ := hsettings after₁ after₂ hlast₁ hlast₂
  refine Or.inr ⟨_, _, rfl, rfl, ?_⟩
  unfold finished report
  rw [htwins.ofTrees a.configuration mode hdatabase hcompetitors]

/-- Two runs on packages with the same bytes end alike, if the files of the settings that they read
at the end are the same. -/
theorem finish_alike (a : Analyzer) (later : Timestamp) (mode : Mode) {input₁ input₂ : PathText}
    {prepared₁ prepared₂ : PreparedPackage} (hd : a.decompiler.GoesByBytes)
    (h₁ : AtWork fs₁ work₁ prepared₁.path bytes ["decompiled", "raw"])
    (h₂ : AtWork fs₂ work₂ prepared₂.path bytes ["decompiled", "raw"])
    (hsettings : ∀ after₁ after₂, Within (fs₁.locate work₁) fs₁ after₁ →
      Within (fs₂.locate work₂) fs₂ after₂ →
      Findings.database after₂ a.configuration = Findings.database after₁ a.configuration ∧
        Findings.competitors after₂ a.configuration = Findings.competitors after₁ a.configuration) :
    EndAlike ((a.finish mode input₁ work₁ prepared₁).runIn fs₁).1
      (({ a with moment := later }.finish mode input₂ work₂ prepared₂).runIn fs₂).1 := by
  rw [runIn_finish, runIn_finish]
  rcases hrun₁ : (a.decompiler.decompile prepared₁.path (Path.join work₁ "decompiled")).runIn fs₁
    with ⟨outcome₁, mid₁⟩
  rcases hrun₂ : (a.decompiler.decompile prepared₂.path (Path.join work₂ "decompiled")).runIn fs₂
    with ⟨outcome₂, mid₂⟩
  obtain ⟨houtcome, hsame⟩ := hd.alike h₁.ready h₂.ready hrun₁ hrun₂
  have hwithin₁ := hd.within h₁.ready hrun₁
  have hwithin₂ := hd.within h₂.ready hrun₂
  rw [← locate_congr hwithin₁.current, ← locate_congr hwithin₂.current] at hsame
  have hname : IsName "decompiled" := by decide
  rw [locate_join_name _ _ hname] at hwithin₁ hwithin₂
  cases outcome₁ with
  | error e₁ =>
    cases outcome₂ with
    | error e₂ => exact Or.inl ⟨e₁, e₂, rfl, rfl⟩
    | ok u => cases houtcome
  | ok u =>
    cases outcome₂ with
    | error e₂ => cases houtcome
    | ok u =>
      dsimp only
      have hdigest : fs₂.digest prepared₂.path = fs₁.digest prepared₁.path := by
        rw [digest, digest, h₁.read, h₂.read]
      rw [hdigest]
      refine concluded_alike a later mode _ (h₁.of_within (by decide) hwithin₁ (by decide))
        (h₂.of_within (by decide) hwithin₂ (by decide)) hsame fun after₁ after₂ hlast₁ hlast₂ => ?_
      rw [locate_congr hwithin₁.current] at hlast₁
      rw [locate_congr hwithin₂.current] at hlast₂
      exact hsettings after₁ after₂ ((hwithin₁.mono (List.prefix_append _ _)).trans hlast₁)
        ((hwithin₂.mono (List.prefix_append _ _)).trans hlast₂)

variable {fs₀ mid : FileSystem} {tree : PathText}

/-- A package with the entries of a tree is extracted beside its decompiled tree, to the same
tree. -/
theorem AtWork.extracts (h : AtWork fs work package bytes ["raw"]) (wf₀ : fs₀.WellFormed)
    (htree : fs₀.isDirectory tree = true) (hpackable : Packable fs₀ tree)
    (hread : Zip.read bytes = .ok ((fs₀.walkPath tree).map WalkedFile.member)) :
    ∃ after done, extractInto package (Path.join work "raw") fs = (after, .ok done) ∧
      after.isDirectory (Path.join work "raw") = true ∧ after.WellFormed ∧
      after.walkPath (Path.join work "raw") = fs₀.walkPath tree := by
  have hraw : Storable "raw" := by decide
  have hfresh := fresh_join_name h.wellFormed h.room.isDirectory hraw
    (h.room.absent "raw" (by decide))
  obtain ⟨after, hlay, hafter⟩ := layMembers_walkPath wf₀ h.wellFormed htree hpackable hfresh
  obtain ⟨loc, executable, hresolve⟩ := readFile_eq_ok.mp h.read
  have hextract : extractInto package (Path.join work "raw") fs
      = Extraction.layMembers (Path.join work "raw") fs
          ((fs₀.walkPath tree).map WalkedFile.member) := by
    rw [extractInto, Extraction.readArchive_of_resolve hresolve hread]
  exact ⟨after, _, hextract.trans hlay, hafter⟩

/-- A run on a prepared package with the entries of a tree gives a report, if the decompiler leaves
a manifest for it. The tree is then there as the raw one. -/
theorem AtWork.finishes {prepared : PreparedPackage} {u : Unit} (a : Analyzer) (mode : Mode)
    (input : PathText) (hd : a.decompiler.GoesByBytes)
    (h : AtWork fs work prepared.path bytes ["decompiled", "raw"])
    (hrun : (a.decompiler.decompile prepared.path (Path.join work "decompiled")).runIn fs
      = (.ok u, mid))
    (hmanifest : mid.isFile (Path.join (Path.join work "decompiled") manifestName) = true)
    (wf₀ : fs₀.WellFormed) (htree : fs₀.isDirectory tree = true) (hpackable : Packable fs₀ tree)
    (hread : Zip.read bytes = .ok ((fs₀.walkPath tree).map WalkedFile.member)) :
    ∃ digest extracted after,
      ((a.finish mode input work prepared).runIn fs).1
        = .ok (a.finished mode input work prepared digest extracted after) ∧
      Within (fs.locate work) fs after ∧
      after.isDirectory (Path.join work "raw") = true ∧ after.WellFormed ∧
      after.walkPath (Path.join work "raw") = fs₀.walkPath tree := by
  have hwithin := hd.within h.ready hrun
  rw [locate_join_name _ _ (by decide)] at hwithin
  have hdecompiled : mid.isDirectory (Path.join work "decompiled") = true := by
    obtain ⟨content, hcontent, -⟩ := readFile_of_isFile hmanifest
    obtain ⟨loc, executable, hresolve⟩ := readFile_eq_ok.mp hcontent
    exact isDirectory_of_join (Path.join_ne_empty (by decide)) (by decide) hresolve
  have hwork : AtWork mid work prepared.path bytes ["raw"] :=
    h.of_within (by decide) hwithin (by decide)
  obtain ⟨after, done, hextract, hafter⟩ := hwork.extracts wf₀ htree hpackable hread
  have hraw := extractInto_within_name hwork.room.isDirectory (by decide)
    (hwork.room.absent "raw" (by decide)) hextract
  have hstays := isDirectory_of_stays hraw.current hraw.directories hdecompiled
  refine ⟨(fs.digest prepared.path).toOption, done.written, after, ?_, ?_, hafter⟩
  · rw [runIn_finish, hrun]
    dsimp only
    rw [concluded, if_pos hmanifest, hextract]
    dsimp only
    rw [if_pos hstays]
  · rw [locate_congr hwithin.current] at hraw
    exact (hwithin.mono (List.prefix_append _ _)).trans (hraw.mono (List.prefix_append _ _))

end Analyzer
end SdkEvidence
