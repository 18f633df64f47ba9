import SdkEvidence.Proofs.Package.MergeRun

/-!
# The first step that fails

The failure of a merge is that of the first step that fails, and each step has its own class of
failures (`FirstFailure`). A merge fails exactly when some step does
(`mergeContainer_error_iff`).
-/
namespace SdkEvidence.Merge

open FileSystem

/-- Sub-packages are laid over the staging directory, all of them with success. -/
inductive Laid (unpacked staging : PathText) :
    FileSystem → List WalkedFile → FileSystem → Prop
  | nil (fs : FileSystem) : Laid unpacked staging fs [] fs
  | cons {fs mid after : FileSystem} {file : WalkedFile} {rest : List WalkedFile}
      {done : Extraction}
      (first : extractInto (Path.join unpacked file.relative) staging fs = (mid, .ok done))
      (later : Laid unpacked staging mid rest after) :
      Laid unpacked staging fs (file :: rest) after

/-- A container is unpacked and planned. -/
def Planned (scratch container : PathText) (fs after : FileSystem) (plan : Option SplitPlan) :
    Prop :=
  ∃ opened, extractInto container (unpackedIn scratch) fs = (after, .ok opened) ∧
    SplitPlan.ofFiles? (after.walkPath (unpackedIn scratch)) = plan

/-- How the first step that fails while a package is put together names its failure. -/
inductive AssemblyFailure (scratch container : PathText) (fs : FileSystem) : Failure → Prop
  | container {after : FileSystem} {reason : ExtractionError}
      (fails : extractInto container (unpackedIn scratch) fs = (after, .error reason)) :
      AssemblyFailure scratch container fs (.containerExtraction reason.message)
  | noBase {mid : FileSystem} (planned : Planned scratch container fs mid none) :
      AssemblyFailure scratch container fs .noBasePackage
  | base {mid after : FileSystem} {plan : SplitPlan} {reason : ExtractionError}
      (planned : Planned scratch container fs mid (some plan))
      (fails : extractInto (Path.join (unpackedIn scratch) plan.base.relative) (stagingIn scratch)
        mid = (after, .error reason)) :
      AssemblyFailure scratch container fs (.baseExtraction reason.message)
  | overlay {mid last after : FileSystem} {plan : SplitPlan} {before rest : List WalkedFile}
      {split : WalkedFile} {reason : ExtractionError}
      (planned : Planned scratch container fs mid (some plan))
      (order : plan.overlays = before ++ split :: rest)
      (laid : Laid (unpackedIn scratch) (stagingIn scratch) mid (plan.base :: before) last)
      (fails : extractInto (Path.join (unpackedIn scratch) split.relative) (stagingIn scratch)
        last = (after, .error reason)) :
      AssemblyFailure scratch container fs
        (.containerExtraction (split.name ++ ": " ++ reason.message))
  | recompression {mid last after : FileSystem} {plan : SplitPlan} {reason : OsError}
      (planned : Planned scratch container fs mid (some plan))
      (laid : Laid (unpackedIn scratch) (stagingIn scratch) mid (plan.base :: plan.overlays) last)
      (fails : compressDirectory (stagingIn scratch) (assembledIn scratch) last
        = (after, .error reason)) :
      AssemblyFailure scratch container fs
        (.repackaging (Recompression.failureText (assembledIn scratch) reason))

variable {unpacked staging scratch container : PathText} {fs after : FileSystem}

theorem overlay_ok_iff {files : List WalkedFile} :
    (∃ result, (overlay unpacked staging files).runIn fs = (.ok result, after))
      ↔ Laid unpacked staging fs files after := by
  induction files generalizing fs with
  | nil =>
    constructor
    · rintro ⟨result, h⟩
      cases h
      exact Laid.nil _
    · intro h
      cases h
      exact ⟨_, rfl⟩
  | cons file rest ih =>
    constructor
    · rintro ⟨result, h⟩
      obtain ⟨done, mid, hstep, hrest⟩ := Action.runIn_bind_ok.mp h
      obtain ⟨more, last, hlater, hend⟩ := Action.runIn_bind_ok.mp hrest
      cases hend
      exact Laid.cons (Action.runIn_step_ok.mp hstep) (ih.mp ⟨more, hlater⟩)
    · intro h
      cases h with
      | cons first later =>
        obtain ⟨more, hlater⟩ := ih.mpr later
        exact ⟨_, Action.runIn_bind_ok.mpr ⟨_, _, Action.runIn_step_ok.mpr first,
          Action.runIn_bind_ok.mpr ⟨_, _, hlater, rfl⟩⟩⟩

/-- An overlay fails exactly when one sub-package cannot be laid over the ones before it. -/
theorem overlay_error_iff {files : List WalkedFile} {e : Failure} :
    (∃ after, (overlay unpacked staging files).runIn fs = (.error e, after))
      ↔ ∃ before split rest last after reason, files = before ++ split :: rest ∧
          Laid unpacked staging fs before last ∧
          extractInto (Path.join unpacked split.relative) staging last = (after, .error reason) ∧
          e = .containerExtraction (split.name ++ ": " ++ reason.message) := by
  induction files generalizing fs with
  | nil =>
    constructor
    · rintro ⟨after, h⟩
      cases h
    · rintro ⟨before, split, rest, last, after, reason, hfiles, -⟩
      simp at hfiles
  | cons file more ih =>
    constructor
    · rintro ⟨after, h⟩
      rcases Action.runIn_bind_error.mp h with hstep | ⟨done, mid, hstep, hrest⟩
      · obtain ⟨reason, hfails, rfl⟩ := Action.runIn_step_error.mp hstep
        exact ⟨[], file, more, _, after, reason, rfl, Laid.nil _, hfails, rfl⟩
      · rcases Action.runIn_bind_error.mp hrest with hlater | ⟨_, _, _, hend⟩
        · obtain ⟨before, split, rest, last, later, reason, hfiles, hlaid, hfails, he⟩ :=
            ih.mp ⟨after, hlater⟩
          exact ⟨file :: before, split, rest, last, later, reason, by rw [hfiles]; rfl,
            Laid.cons (Action.runIn_step_ok.mp hstep) hlaid, hfails, he⟩
        · cases hend
    · rintro ⟨before, split, rest, last, after, reason, hfiles, hlaid, hfails, rfl⟩
      cases hlaid with
      | nil =>
        simp only [List.nil_append, List.cons.injEq] at hfiles
        obtain ⟨rfl, rfl⟩ := hfiles
        exact ⟨after, Action.runIn_bind_error.mpr
          (Or.inl (Action.runIn_step_error.mpr ⟨reason, hfails, rfl⟩))⟩
      | cons first later =>
        simp only [List.cons_append, List.cons.injEq] at hfiles
        obtain ⟨rfl, rfl⟩ := hfiles
        obtain ⟨final, hlater⟩ :=
          ih.mpr ⟨_, split, rest, last, after, reason, rfl, later, hfails, rfl⟩
        exact ⟨final, Action.runIn_bind_error.mpr (Or.inr
          ⟨_, _, Action.runIn_step_ok.mpr first, Action.runIn_bind_error.mpr (Or.inl hlater)⟩)⟩

/-- A package is not put together exactly when one of the steps fails, and the failure is that of
the first one. -/
theorem assemble_error_iff {e : Failure} :
    (∃ after, (assemble scratch container).runIn fs = (.error e, after))
      ↔ AssemblyFailure scratch container fs e := by
  constructor
  · rintro ⟨after, h⟩
    rw [runIn_assemble] at h
    split at h
    next hfails => cases h; exact .container hfails
    next mid opened hopened =>
      split at h
      next hplan => cases h; exact .noBase ⟨opened, hopened, hplan⟩
      next plan hplan =>
        have hplanned : Planned scratch container fs mid (some plan) := ⟨opened, hopened, hplan⟩
        split at h
        next hfails => cases h; exact .base hplanned hfails
        next based base hbase =>
          split at h
          next hoverlay =>
            cases h
            obtain ⟨before, split, rest, last, later, reason, horder, hlaid, hfails, rfl⟩ :=
              overlay_error_iff.mp ⟨_, hoverlay⟩
            exact .overlay hplanned horder (.cons hbase hlaid) hfails
          next laid hoverlay =>
            split at h
            next hfails =>
              cases h
              exact .recompression hplanned (.cons hbase (overlay_ok_iff.mp ⟨_, hoverlay⟩)) hfails
            next => cases h
  · intro h
    simp only [runIn_assemble]
    cases h with
    | container fails => exact ⟨_, by rw [fails]⟩
    | noBase planned =>
      obtain ⟨opened, hopened, hplan⟩ := planned
      exact ⟨_, by rw [hopened]; dsimp only; rw [hplan]⟩
    | base planned fails =>
      obtain ⟨opened, hopened, hplan⟩ := planned
      exact ⟨_, by rw [hopened]; dsimp only; rw [hplan]; dsimp only; rw [fails]⟩
    | overlay planned order laid fails =>
      obtain ⟨opened, hopened, hplan⟩ := planned
      cases laid with
      | cons first later =>
        obtain ⟨last, hoverlay⟩ :=
          overlay_error_iff.mpr ⟨_, _, _, _, _, _, order, later, fails, rfl⟩
        exact ⟨last, by
          rw [hopened]; dsimp only; rw [hplan]; dsimp only; rw [first]; dsimp only; rw [hoverlay]⟩
    | recompression planned laid fails =>
      obtain ⟨opened, hopened, hplan⟩ := planned
      cases laid with
      | cons first later =>
        obtain ⟨result, hoverlay⟩ := overlay_ok_iff.mpr later
        exact ⟨_, by
          rw [hopened]; dsimp only; rw [hplan]; dsimp only; rw [first]; dsimp only; rw [hoverlay]
          dsimp only; rw [fails]⟩

end SdkEvidence.Merge
