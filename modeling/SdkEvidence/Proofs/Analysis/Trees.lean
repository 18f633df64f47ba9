import SdkEvidence.Analysis.Run
import SdkEvidence.Proofs.Action
import SdkEvidence.Proofs.Analysis.Findings

/-!
# Reports on trees

A tree that is examined as decompiled and raw at once shows what the tree and a copy of it show,
taken as two trees (`analyzeTrees_copy`).
-/
namespace SdkEvidence.Analyzer

open FileSystem

/-- Examining two trees changes nothing, and fails only where the decompiled one is not there. -/
theorem runIn_examine (a : Analyzer) (mode : Mode) (decompiled raw : PathText) (fs : FileSystem) :
    (a.examine mode decompiled raw).runIn fs
      = (if fs.isDirectory decompiled then
          .ok (Findings.ofTrees fs a.configuration mode decompiled raw)
        else .error (.invalidInput ("Decompiled tree does not exist: " ++ decompiled)), fs) := by
  unfold examine
  rw [Action.runIn_bind, Action.runIn_ask]
  dsimp only
  cases fs.isDirectory decompiled <;> rfl

theorem runIn_analyzeTrees {a : Analyzer} {mode : Mode} {decompiled raw : PathText}
    {fs : FileSystem} (hdir : fs.isDirectory decompiled = true) :
    (a.analyzeTrees mode decompiled raw).runIn fs
      = (.ok (a.report mode decompiled a.decompiler.name none none
          (Findings.ofTrees fs a.configuration mode decompiled raw)), fs) := by
  unfold analyzeTrees
  rw [Action.runIn_bind, runIn_examine, if_pos hdir]
  rfl

/-- A tree and a copy of it give the report that the tree gives alone, whenever the two reports are
dated and apart from the numbers of the stages. -/
theorem analyzeTrees_copy (a : Analyzer) (later : Timestamp) (mode : Mode) (fs : FileSystem)
    (wf : fs.WellFormed) (tree copy : PathText) (h : Twins fs tree fs copy) :
    ∃ single both,
      (a.analyzeTrees mode tree tree).runIn fs = (.ok single, fs) ∧
      ({ a with moment := later }.analyzeTrees mode tree copy).runIn fs = (.ok both, fs) ∧
      both = { single with generatedAt := both.generatedAt, stages := both.stages } := by
  have hself : Twins fs tree fs tree := ⟨h.first, h.first, fun _ => rfl⟩
  have hpackages : TwinPackages fs tree tree fs tree copy :=
    { wellFormed₁ := wf
      wellFormed₂ := wf
      decompiled := hself
      raw := h
      one₁ := fun _ => rfl
      one₂ := fun _ => h.walkPath wf wf }
  refine ⟨_, _, runIn_analyzeTrees h.first, runIn_analyzeTrees h.first, ?_⟩
  unfold report
  rw [hpackages.ofTrees a.configuration mode rfl rfl]

/-- A small package beside a copy of it, whose directories return their entries in another order. -/
def Copied.files : FileSystem :=
  { nodes :=
      [(["t"], .directory), (["t", "AndroidManifest.xml"], .file "<manifest/>".toUTF8 false),
       (["t", "lib"], .directory), (["t", "lib", "x.so"], .file "x".toUTF8 false),
       (["c"], .directory), (["c", "lib"], .directory),
       (["c", "lib", "x.so"], .file "x".toUTF8 false),
       (["c", "AndroidManifest.xml"], .file "<manifest/>".toUTF8 false)]
    current := []
    temporary := "/" }

def Copied.noon : Timestamp := ⟨2024, 1, 1, 12, 0, 0, 0, by decide⟩

def Copied.evening : Timestamp := ⟨2024, 1, 1, 18, 0, 0, 0, by decide⟩

theorem Copied.twins : Twins Copied.files "/t" Copied.files "/c" := by
  refine ⟨by decide, by decide, fun way => ?_⟩
  have hlocate : Copied.files.locate "/t" = ["t"] ∧ Copied.files.locate "/c" = ["c"] := by decide
  rw [hlocate.1, hlocate.2]
  simp only [FileSystem.get?, Copied.files, List.lookup_cons, List.lookup_nil]
  -- both look the same ways up, in another order
  by_cases hmanifest : way = ["AndroidManifest.xml"]
  · simp [hmanifest]
  · have hother : (way == ["AndroidManifest.xml"]) = false := by simpa using hmanifest
    simp [hother]

/-- The copy is examined beside the tree, in a search for the name of its library. -/
theorem analyzeTrees_copy_small :
    Copied.files.WellFormed ∧ Twins Copied.files "/t" Copied.files "/c" ∧
      ∃ single both,
        ((ofConfiguration .default Copied.noon).analyzeTrees (.detection ["x"]) "/t" "/t").runIn
          Copied.files = (.ok single, Copied.files) ∧
        ((ofConfiguration .default Copied.evening).analyzeTrees (.detection ["x"]) "/t" "/c").runIn
          Copied.files = (.ok both, Copied.files) ∧
        both = { single with generatedAt := both.generatedAt, stages := both.stages } := by
  have wf : Copied.files.WellFormed := by decide
  exact ⟨wf, Copied.twins, analyzeTrees_copy (ofConfiguration .default Copied.noon) Copied.evening
    (.detection ["x"]) Copied.files wf "/t" "/c" Copied.twins⟩

end SdkEvidence.Analyzer
