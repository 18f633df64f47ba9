import SdkEvidence.Proofs.Analysis.Prepared

/-!
# A decompiler that leaves the package as it is

The simplest decompiler that goes by the bytes of the package (`verbatim_goesByBytes`): its tree is
a directory with one file, which holds the package under the name of the manifest.
-/
namespace SdkEvidence.Decompiler

open FileSystem

/-- A decompiler that leaves the package as it is, as the manifest of its tree. -/
def verbatim : Decompiler where
  name := "verbatim"
  check := pure ()
  decompile package out := Action.change .ofOsError fun fs => do
    let content ← fs.readFile package
    let made ← fs.createDirectory out
    made.writeFile (Path.join out manifestName) content

/-- The directory of the tree, and the tree. -/
def verbatimTop (fs : FileSystem) (out : PathText) : FileSystem :=
  fs.put (fs.locate out) .directory

def verbatimTree (fs : FileSystem) (out : PathText) (bytes : ByteArray) : FileSystem :=
  (verbatimTop fs out).put (fs.locate out ++ [manifestName]) (.file bytes false)

variable {fs : FileSystem} {package out : PathText} {bytes : ByteArray}

theorem storable_manifestName : Storable manifestName := by
  decide

theorem locate_verbatimTop : (verbatimTop fs out).locate out = fs.locate out :=
  locate_congr (put_current fs _ _) out

namespace Ready

theorem absent (h : Ready fs package out bytes) (way : Location) :
    fs.get? (fs.locate out ++ way) = none := by
  obtain ⟨-, habsent, -⟩ := resolve_free h.free
  exact h.wellFormed.get?_below_absent habsent way

theorem isDirectory (h : Ready fs package out bytes) :
    (verbatimTop fs out).isDirectory out = true := by
  have hfound := resolve_put h.free (Or.inl ⟨_, rfl, Or.inr rfl⟩)
  simp [verbatimTop, FileSystem.isDirectory, find?, hfound]

theorem manifest_absent (h : Ready fs package out bytes) :
    (verbatimTop fs out).get? ((verbatimTop fs out).locate out ++ [manifestName]) = none := by
  rw [locate_verbatimTop, verbatimTop, get?_put_of_ne _ (by simp), h.absent]

end Ready

theorem runIn_verbatim (h : Ready fs package out bytes) :
    (verbatim.decompile package out).runIn fs = (.ok (), verbatimTree fs out bytes) := by
  have hmade : fs.createDirectory out = .ok (verbatimTop fs out) := by
    rw [createDirectory, h.free]
    rfl
  have hwrite := writeFile_join_name h.isDirectory storable_manifestName h.manifest_absent bytes
  rw [locate_verbatimTop] at hwrite
  refine Action.runIn_change_ok.mpr ?_
  rw [h.read]
  show (fs.createDirectory out >>= fun made =>
    made.writeFile (Path.join out manifestName) bytes) = _
  rw [hmade]
  exact hwrite

/-- The tree has the manifest alone. -/
theorem get?_verbatimTree (h : Ready fs package out bytes) (way : Location) :
    (verbatimTree fs out bytes).get? (fs.locate out ++ way)
      = if way = [] then some .directory
        else if way = [manifestName] then some (.file bytes false) else none := by
  have htop : fs.locate out ≠ [] := by
    intro hnil
    have hroot := h.absent []
    rw [hnil] at hroot
    cases hroot
  unfold verbatimTree verbatimTop
  by_cases hway : way = [manifestName]
  · rw [hway, get?_put_self _ (by simp)]
    rfl
  · rw [get?_put_of_ne _ (by simpa using hway)]
    by_cases hnil : way = []
    · rw [hnil, List.append_nil, get?_put_self _ htop, if_pos rfl]
    · rw [get?_put_of_ne _ (by simpa using hnil), h.absent, if_neg hnil, if_neg hway]

theorem isFile_verbatimTree (h : Ready fs package out bytes) :
    (verbatimTree fs out bytes).isFile (Path.join out manifestName) = true := by
  have hfree := resolve_free_join_name h.isDirectory storable_manifestName h.manifest_absent
  have hfound := resolve_put hfree
    (Or.inl ⟨_, rfl, Or.inl rfl⟩ : Target.Takes _ _ (.file bytes false))
  rw [locate_verbatimTop] at hfound
  simp [verbatimTree, isFile, find?, hfound]

theorem verbatimTree_within (h : Ready fs package out bytes) :
    Within (fs.locate out) fs (verbatimTree fs out bytes) := by
  obtain ⟨-, habsent, dir, name, hsplit, hdir, hname⟩ := resolve_free h.free
  have htop : Within (fs.locate out) fs (verbatimTop fs out) := by
    refine Within.put fs (List.prefix_refl _) _ (by simp [habsent]) fun wf => ?_
    rw [hsplit]
    exact wf.put hdir hname (Or.inl rfl)
  have hmanifest := within_put_name h.isDirectory storable_manifestName.isName h.manifest_absent
    (.file bytes false)
  rw [locate_verbatimTop] at hmanifest
  exact htop.trans (hmanifest.mono (List.prefix_append _ _))

theorem verbatim_goesByBytes : verbatim.GoesByBytes where
  check := ⟨.ok (), fun _ => rfl⟩
  alike h₁ h₂ hrun₁ hrun₂ := by
    rw [runIn_verbatim h₁] at hrun₁
    rw [runIn_verbatim h₂] at hrun₂
    cases hrun₁
    cases hrun₂
    exact ⟨rfl, fun way => by rw [get?_verbatimTree h₁, get?_verbatimTree h₂]⟩
  within h hrun := by
    rw [runIn_verbatim h] at hrun
    cases hrun
    exact verbatimTree_within h

end SdkEvidence.Decompiler
