import SdkEvidence.Proofs.FileSystem.Copies

/-!
# The same at a path

Two file systems hold the same at a path (`SameAt`) when it leads to nothing in both, to files with
one content, or to directories with one tree. They may list their nodes in any order, and hold other
things elsewhere. Then they answer alike to all questions about the path and about those below it
(`HoldSame.join`); only the entries of a directory may come in another order (`SameAt.entriesAt`).
-/
namespace SdkEvidence.FileSystem

variable {fs₁ fs₂ : FileSystem} {p q : PathText}

/-- A path leads to the same in two file systems. -/
inductive SameAt (fs₁ fs₂ : FileSystem) (p : PathText) : Prop
  | missing (first : fs₁.find? p = none) (second : fs₂.find? p = none)
  | file {loc₁ loc₂ : Location} {content : ByteArray} {executable₁ executable₂ : Bool}
      (first : fs₁.find? p = some (loc₁, .file content executable₁))
      (second : fs₂.find? p = some (loc₂, .file content executable₂))
  | tree {top₁ top₂ : Location} (first : fs₁.find? p = some (top₁, .directory))
      (second : fs₂.find? p = some (top₂, .directory)) (same : SameTree fs₁ top₁ fs₂ top₂)

/-- Two file systems hold the same at a path and below it. The empty path leads nowhere, but paths
below it start at the current directory. -/
structure HoldSame (fs₁ fs₂ : FileSystem) (p : PathText) : Prop where
  here : SameAt fs₁ fs₂ p
  current : p = "" → SameAt fs₁ fs₂ "."

/-- What stands at and below a location where a file is. -/
theorem contentAt?_of_file {fs : FileSystem} (wf : fs.WellFormed) {loc : Location}
    {content : ByteArray} {executable : Bool}
    (hfile : fs.get? loc = some (.file content executable)) (way : Location) :
    fs.contentAt? (loc ++ way) = if way = [] then some content else none := by
  split
  next hway =>
    rw [hway, List.append_nil]
    exact contentAt?_eq_some.mpr ⟨executable, hfile⟩
  next hway =>
    refine contentAt?_of_absent ?_
    by_contra hsome
    have hdir := wf.directory_of_below hway (Option.isSome_iff_ne_none.mpr hsome)
    rw [hfile] at hdir
    cases hdir

theorem find?_of_join {fs : FileSystem} (hp : p ≠ "") (hrel : Path.isAbsolute q = false)
    (hnot : ∀ top, fs.find? p ≠ some (top, .directory)) : fs.find? (Path.join p q) = none := by
  cases hfind : fs.find? (Path.join p q) with
  | none => rfl
  | some found =>
    have hdir := isDirectory_of_join hp hrel (find?_eq_some.mp hfind)
    exact absurd (isDirectory_eq_true.mp hdir) (hnot _)

/-- Only what a path leads to counts for the text there. -/
theorem readText?_eq (fs : FileSystem) (p : PathText) :
    fs.readText? p = match fs.find? p with
      | some (_, .file content _) => Utf8.decode? content
      | _ => none := by
  unfold FileSystem.readText? readText readFile find?
  rcases fs.resolve p with e | (⟨loc, _ | ⟨content, executable⟩⟩ | ⟨loc, slash⟩)
  · rfl
  · rfl
  · dsimp only
    cases Utf8.decode? content <;> rfl
  · rfl

namespace SameAt

theorem isDirectory (h : SameAt fs₁ fs₂ p) : fs₂.isDirectory p = fs₁.isDirectory p := by
  cases h with
  | _ first second => rw [FileSystem.isDirectory, FileSystem.isDirectory, first, second]

theorem isFile (h : SameAt fs₁ fs₂ p) : fs₂.isFile p = fs₁.isFile p := by
  cases h with
  | _ first second => rw [FileSystem.isFile, FileSystem.isFile, first, second]

theorem twins (h : SameAt fs₁ fs₂ p) (hdir : fs₁.isDirectory p = true) : Twins fs₁ p fs₂ p := by
  have hfirst := isDirectory_eq_true.mp hdir
  cases h with
  | missing first => simp [hfirst] at first
  | file first => simp [hfirst] at first
  | tree first second same =>
    obtain ⟨rfl, -⟩ := find?_directory_trail first
    obtain ⟨rfl, -⟩ := find?_directory_trail second
    exact ⟨hdir, by simp [FileSystem.isDirectory, second], same⟩

theorem readText? (h : SameAt fs₁ fs₂ p) : fs₂.readText? p = fs₁.readText? p := by
  rw [readText?_eq, readText?_eq]
  cases h with
  | _ first second => rw [first, second]

/-- A walk does not depend on the order of the nodes. -/
theorem walkPath (h : SameAt fs₁ fs₂ p) (wf₁ : fs₁.WellFormed) (wf₂ : fs₂.WellFormed) :
    fs₂.walkPath p = fs₁.walkPath p := by
  cases h with
  | missing first second => rw [FileSystem.walkPath, FileSystem.walkPath, first, second]
  | file first second =>
    obtain ⟨-, hfile₁⟩ := resolve_found (find?_eq_some.mp first)
    obtain ⟨-, hfile₂⟩ := resolve_found (find?_eq_some.mp second)
    unfold FileSystem.walkPath
    rw [first, second]
    refine eq_of_increasing (walk_increasing wf₂ _) (walk_increasing wf₁ _) fun file => ?_
    rw [mem_walk wf₂, mem_walk wf₁, contentAt?_of_file wf₁ hfile₁, contentAt?_of_file wf₂ hfile₂]
  | tree first second same =>
    unfold FileSystem.walkPath
    rw [first, second]
    refine eq_of_increasing (walk_increasing wf₂ _) (walk_increasing wf₁ _) fun file => ?_
    rw [mem_walk wf₂, mem_walk wf₁, same.contentAt?]

/-- A directory has the same entries, in whatever order. -/
theorem entriesAt (h : SameAt fs₁ fs₂ p) (wf₁ : fs₁.WellFormed) (wf₂ : fs₂.WellFormed) :
    (fs₂.entriesAt p).Perm (fs₁.entriesAt p) := by
  cases hdir : fs₁.isDirectory p with
  | true => exact (h.twins hdir).entriesAt wf₁ wf₂
  | false =>
    rw [entriesAt_of_not_directory hdir, entriesAt_of_not_directory (h.isDirectory.trans hdir)]

/-- The same below a path as at it. -/
theorem join (h : SameAt fs₁ fs₂ p) (hp : p ≠ "") (hq : Zip.isEnclosed q = true) :
    SameAt fs₁ fs₂ (Path.join p q) := by
  have hrel := (Zip.depthAfter_of_enclosed hq).1
  cases hdir : fs₁.isDirectory p with
  | false =>
    have hnot {fs : FileSystem} (hdir : fs.isDirectory p = false) :
        ∀ top, fs.find? p ≠ some (top, .directory) := by
      intro top hfind
      simp [FileSystem.isDirectory, hfind] at hdir
    exact .missing (find?_of_join hp hrel (hnot hdir))
      (find?_of_join hp hrel (hnot (h.isDirectory.trans hdir)))
  | true =>
    have htwins := h.twins hdir
    have hresolve := (htwins.join hq).resolve
    generalize htarget₁ : fs₁.resolve (Path.join p q) = target₁ at hresolve
    generalize htarget₂ : fs₂.resolve (Path.join p q) = target₂ at hresolve
    cases hresolve with
    | error e => exact .missing (by simp [find?, htarget₁]) (by simp [find?, htarget₂])
    | free way slash hway => exact .missing (by simp [find?, htarget₁]) (by simp [find?, htarget₂])
    | found way node =>
      have hfound₁ := find?_eq_some.mpr htarget₁
      have hfound₂ := find?_eq_some.mpr htarget₂
      cases node with
      | file content executable => exact .file hfound₁ hfound₂
      | directory => exact .tree hfound₁ hfound₂ (htwins.same.below way)

theorem congr (h : SameAt fs₁ fs₂ p) (h₁ : fs₁.find? q = fs₁.find? p)
    (h₂ : fs₂.find? q = fs₂.find? p) : SameAt fs₁ fs₂ q := by
  cases h with
  | missing first second => exact .missing (h₁.trans first) (h₂.trans second)
  | file first second => exact .file (h₁.trans first) (h₂.trans second)
  | tree first second same => exact .tree (h₁.trans first) (h₂.trans second) same

end SameAt

/-- A relative path starts at the current directory. -/
theorem find?_join_dot (fs : FileSystem) (hq : q ≠ "") (hrel : Path.isAbsolute q = false) :
    fs.find? (Path.join "." q) = fs.find? q := by
  have hjoin : Path.join "." q = "." ++ "/" ++ q := by
    rw [Path.join, if_neg (by simp [hrel]), if_neg (by decide)]
  have hdot : Path.isAbsolute ("." ++ "/" ++ q) = false := by
    rw [← hjoin, Path.isAbsolute_join hrel]
    decide
  have hbody : Path.body ("." ++ "/" ++ q) = "." :: Path.segments q := by
    rw [Path.body, hdot, Path.segments_append_slash]
    rfl
  have hbody' : Path.body q = Path.segments q := by
    rw [Path.body, hrel]
    rfl
  have hfollow : fs.follow fs.current ("." :: Path.segments q)
      = fs.follow fs.current (Path.segments q) := by
    obtain ⟨first, rest, hsegments⟩ := List.exists_cons_of_ne_nil (Path.segments_ne_nil q)
    rw [follow, hsegments]
    unfold follow
    cases fs.get? fs.current with
    | none => rfl
    | some node => cases node <;> rfl
  have hnul : ("." ++ "/" ++ q).toList.contains '\x00' = q.toList.contains '\x00' := by
    simp
  unfold find? resolve
  rw [hjoin, if_neg (by simp), if_neg hq, hnul, hdot, hrel, hbody, hbody']
  simp only [Bool.false_eq_true, if_false, hfollow]

/-- Two file systems that hold the same at a path hold the same below it. -/
theorem HoldSame.join (h : HoldSame fs₁ fs₂ p) (hq : Zip.isEnclosed q = true) (hne : q ≠ "") :
    SameAt fs₁ fs₂ (Path.join p q) := by
  by_cases hp : p = ""
  · have hrel := (Zip.depthAfter_of_enclosed hq).1
    have hempty : Path.join p q = q := by
      rw [hp, Path.join, if_neg (by simp [hrel]), if_pos (Or.inl rfl), String.empty_append]
    rw [hempty]
    exact ((h.current hp).join (by decide) hq).congr (find?_join_dot fs₁ hne hrel).symm
      (find?_join_dot fs₂ hne hrel).symm
  · exact h.here.join hp hq

/-- File systems that list the same nodes in another order hold the same everywhere. -/
theorem holdSame_of_perm (wf₁ : fs₁.WellFormed) (wf₂ : fs₂.WellFormed)
    (hperm : fs₂.nodes.Perm fs₁.nodes) (hcurrent : fs₂.current = fs₁.current) (p : PathText) :
    HoldSame fs₁ fs₂ p := by
  have hget (loc : Location) : fs₂.get? loc = fs₁.get? loc := by
    by_cases hnil : loc = []
    · simp [hnil]
    · refine Option.ext fun node => ?_
      have hlisted := hperm.mem_iff (a := (loc, node))
      rw [wf₁.mem_nodes_iff, wf₂.mem_nodes_iff] at hlisted
      simpa [hnil] using hlisted
  have hsame (q : PathText) : SameAt fs₁ fs₂ q := by
    have hfind : fs₂.find? q = fs₁.find? q := by
      rw [find?, find?, resolve_congr hcurrent fun d _ => hget d]
    cases hfirst : fs₁.find? q with
    | none => exact .missing hfirst (hfind.trans hfirst)
    | some found =>
      obtain ⟨loc, _ | ⟨content, executable⟩⟩ := found
      · exact .tree hfirst (hfind.trans hfirst) fun way => hget _
      · exact .file hfirst (hfind.trans hfirst)
  exact ⟨hsame p, fun _ => hsame "."⟩

end SdkEvidence.FileSystem
