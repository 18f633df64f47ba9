import SdkEvidence.FileSystem.Content
import SdkEvidence.Proofs.FileSystem.Entering
import SdkEvidence.Proofs.FileSystem.Files
import SdkEvidence.Proofs.FileSystem.Walk
import SdkEvidence.Proofs.Zip.EntryName

/-!
# Copies of a tree

Where two directories have the same tree below them, all that is read below one is read below the
other (`Twins.resolve`, `Twins.walkPath`), and every change made below both ends alike and leaves
the same tree again (`Alike.createDirectories`, `Alike.writeFile`). Only what a path does below its
directory counts, so it must not climb out of it.
-/
namespace SdkEvidence.FileSystem

/-- Two trees, each below its top in its file system, have the same nodes at the same ways. -/
def SameTree (fs₁ : FileSystem) (top₁ : Location) (fs₂ : FileSystem) (top₂ : Location) : Prop :=
  ∀ way, fs₂.get? (top₂ ++ way) = fs₁.get? (top₁ ++ way)

/-- Two paths lead to the same way below two tops, or both nowhere for one reason. -/
inductive SameTarget (top₁ top₂ : Location) :
    Except OsError Target → Except OsError Target → Prop where
  | error (e : OsError) : SameTarget top₁ top₂ (.error e) (.error e)
  | found (way : Location) (node : Node) :
      SameTarget top₁ top₂ (.ok (.found (top₁ ++ way) node)) (.ok (.found (top₂ ++ way) node))
  | free (way : Location) (slash : Bool) (hway : way ≠ []) :
      SameTarget top₁ top₂ (.ok (.free (top₁ ++ way) slash)) (.ok (.free (top₂ ++ way) slash))

/-- Two changes leave the same tree, or both fail for one reason. -/
inductive SameChange (top₁ top₂ : Location) :
    Except OsError FileSystem → Except OsError FileSystem → Prop where
  | error (e : OsError) : SameChange top₁ top₂ (.error e) (.error e)
  | ok {fs₁ fs₂ : FileSystem} (same : SameTree fs₁ top₁ fs₂ top₂) :
      SameChange top₁ top₂ (.ok fs₁) (.ok fs₂)

/-- Two runs leave the same tree and end alike, but for the wording of a failure. -/
structure SameRun {α ε₁ ε₂ : Type} (top₁ top₂ : Location) (run₁ : FileSystem × Except ε₁ α)
    (run₂ : FileSystem × Except ε₂ α) : Prop where
  outcome : run₂.2.toOption = run₁.2.toOption
  same : SameTree run₁.1 top₁ run₂.1 top₂

variable {fs₁ fs₂ : FileSystem} {top₁ top₂ : Location}

namespace SameTree

theorem symm (h : SameTree fs₁ top₁ fs₂ top₂) : SameTree fs₂ top₂ fs₁ top₁ :=
  fun way => (h way).symm

theorem contentAt? (h : SameTree fs₁ top₁ fs₂ top₂) (way : Location) :
    fs₂.contentAt? (top₂ ++ way) = fs₁.contentAt? (top₁ ++ way) := by
  simp only [FileSystem.contentAt?, h way]

theorem below (h : SameTree fs₁ top₁ fs₂ top₂) (way : Location) :
    SameTree fs₁ (top₁ ++ way) fs₂ (top₂ ++ way) := by
  intro more
  rw [List.append_assoc, List.append_assoc]
  exact h _

theorem put (h : SameTree fs₁ top₁ fs₂ top₂) {way : Location} (hway : way ≠ []) (node : Node) :
    SameTree (fs₁.put (top₁ ++ way) node) top₁ (fs₂.put (top₂ ++ way) node) top₂ := by
  intro more
  by_cases hmore : more = way
  · subst hmore
    rw [get?_put_self _ (by simp [hway]), get?_put_self _ (by simp [hway])]
  · rw [get?_put_of_ne _ (by simpa using hmore), get?_put_of_ne _ (by simpa using hmore)]
    exact h more

/-- Segments that stay below the tops lead to the same way. -/
theorem follow (h : SameTree fs₁ top₁ fs₂ top₂) (place : Location) {segments : List String}
    {depth : Nat} (hdepth : Path.depthAfter place.length (Path.moves segments) = some depth) :
    SameTarget top₁ top₂ (fs₁.follow (top₁ ++ place) segments)
      (fs₂.follow (top₂ ++ place) segments) := by
  -- failures are to agree as well, so the cases are those of the function and not of `Follows`
  induction segments generalizing place with
  | nil =>
    unfold FileSystem.follow
    rw [h place]
    cases fs₁.get? (top₁ ++ place) with
    | none => exact .error _
    | some node => exact .found place node
  | cons segment rest ih =>
    unfold FileSystem.follow
    rw [h place]
    split
    next => exact .error _
    next => exact .error _
    next =>
      split
      next hfiller => exact ih place (by rwa [Path.moves_cons_filler hfiller] at hdepth)
      next hfiller =>
        rw [Path.moves_cons (by simpa using hfiller)] at hdepth
        unfold Path.depthAfter at hdepth
        split
        next hup =>
          rw [if_pos hup] at hdepth
          rcases List.eq_nil_or_concat place with rfl | ⟨front, last, rfl⟩
          · cases hdepth
          · rw [List.concat_eq_append] at hdepth ⊢
            rw [← List.append_assoc, ← List.append_assoc, List.dropLast_concat,
              List.dropLast_concat]
            exact ih front (by simpa using hdepth)
        next hup =>
          rw [if_neg hup] at hdepth
          rw [List.append_assoc, List.append_assoc, h (place ++ [segment])]
          split
          next => exact .error _
          next =>
            split
            next => exact ih (place ++ [segment]) (by simpa using hdepth)
            next =>
              split
              next => exact .free _ _ (by simp)
              next => exact .error _

end SameTree

/-- Two paths go on alike from two directories with the same tree below them. -/
structure Alike (fs₁ : FileSystem) (p₁ : PathText) (top₁ : Location) (fs₂ : FileSystem)
    (p₂ : PathText) (top₂ : Location) (left : List String) : Prop where
  first : Enters fs₁ p₁ top₁ left
  second : Enters fs₂ p₂ top₂ left
  same : SameTree fs₁ top₁ fs₂ top₂
  enclosed : ∃ depth, Path.depthAfter 0 (Path.moves left) = some depth

namespace Alike

variable {p₁ p₂ : PathText} {left : List String}

theorem resolve (h : Alike fs₁ p₁ top₁ fs₂ p₂ top₂ left) :
    SameTarget top₁ top₂ (fs₁.resolve p₁) (fs₂.resolve p₂) := by
  obtain ⟨depth, hdepth⟩ := h.enclosed
  rw [h.first.resolve, h.second.resolve]
  simpa using h.same.follow [] hdepth

theorem isDirectory (h : Alike fs₁ p₁ top₁ fs₂ p₂ top₂ left) :
    fs₂.isDirectory p₂ = fs₁.isDirectory p₁ := by
  have hresolve := h.resolve
  unfold FileSystem.isDirectory find?
  generalize fs₁.resolve p₁ = target₁ at hresolve ⊢
  generalize fs₂.resolve p₂ = target₂ at hresolve ⊢
  cases hresolve with
  | found way node => cases node <;> rfl
  | _ => rfl

theorem isFile (h : Alike fs₁ p₁ top₁ fs₂ p₂ top₂ left) : fs₂.isFile p₂ = fs₁.isFile p₁ := by
  have hresolve := h.resolve
  unfold FileSystem.isFile find?
  generalize fs₁.resolve p₁ = target₁ at hresolve ⊢
  generalize fs₂.resolve p₂ = target₂ at hresolve ⊢
  cases hresolve with
  | found way node => cases node <;> rfl
  | _ => rfl

theorem readFile (h : Alike fs₁ p₁ top₁ fs₂ p₂ top₂ left) : fs₂.readFile p₂ = fs₁.readFile p₁ := by
  have hresolve := h.resolve
  unfold FileSystem.readFile
  generalize fs₁.resolve p₁ = target₁ at hresolve ⊢
  generalize fs₂.resolve p₂ = target₂ at hresolve ⊢
  cases hresolve with
  | found way node => cases node <;> rfl
  | _ => rfl

/-- Paths stay alike as long as directories stay and the trees stay the same. -/
theorem of_stays {after₁ after₂ : FileSystem} (h : Alike fs₁ p₁ top₁ fs₂ p₂ top₂ left)
    (hcurrent₁ : after₁.current = fs₁.current)
    (hstays₁ : ∀ d, fs₁.get? d = some .directory → after₁.get? d = some .directory)
    (hcurrent₂ : after₂.current = fs₂.current)
    (hstays₂ : ∀ d, fs₂.get? d = some .directory → after₂.get? d = some .directory)
    (hsame : SameTree after₁ top₁ after₂ top₂) : Alike after₁ p₁ top₁ after₂ p₂ top₂ left :=
  ⟨h.first.of_stays hcurrent₁ hstays₁, h.second.of_stays hcurrent₂ hstays₂, hsame, h.enclosed⟩

/-- Parents of paths that go on alike do so as well, with one step less. -/
theorem parent (h : Alike fs₁ p₁ top₁ fs₂ p₂ top₂ left) (hleft : Path.moves left ≠ []) :
    ∃ q₁ q₂, Path.parent? p₁ = some q₁ ∧ Path.parent? p₂ = some q₂ ∧
      Alike fs₁ q₁ top₁ fs₂ q₂ top₂ (Path.above left) := by
  obtain ⟨q₁, hparent₁, henters₁⟩ := h.first.parent hleft
  obtain ⟨q₂, hparent₂, henters₂⟩ := h.second.parent hleft
  refine ⟨q₁, q₂, hparent₁, hparent₂, henters₁, henters₂, h.same, ?_⟩
  rw [Path.moves_above]
  exact Path.depthAfter_of_prefix (List.dropLast_prefix _) h.enclosed

theorem createDirectory (h : Alike fs₁ p₁ top₁ fs₂ p₂ top₂ left) :
    SameChange top₁ top₂ (fs₁.createDirectory p₁) (fs₂.createDirectory p₂) := by
  have hresolve := h.resolve
  unfold FileSystem.createDirectory
  generalize fs₁.resolve p₁ = target₁ at hresolve ⊢
  generalize fs₂.resolve p₂ = target₂ at hresolve ⊢
  cases hresolve with
  | error e => exact .error e
  | found way node => exact .error _
  | free way slash hway => exact .ok (h.same.put hway _)

theorem ensureDirectory (h : Alike fs₁ p₁ top₁ fs₂ p₂ top₂ left) :
    SameRun top₁ top₂ (fs₁.ensureDirectory p₁) (fs₂.ensureDirectory p₂) := by
  have hcreate := h.createDirectory
  unfold FileSystem.ensureDirectory
  rw [h.isDirectory]
  generalize fs₁.createDirectory p₁ = made₁ at hcreate ⊢
  generalize fs₂.createDirectory p₂ = made₂ at hcreate ⊢
  cases hcreate with
  | error e => exact ⟨rfl, h.same⟩
  | ok hsame => exact ⟨rfl, hsame⟩

/-- Creating directories ends alike, as long as the bound of the recursion is large enough. -/
theorem createDirectoriesWithin (h : Alike fs₁ p₁ top₁ fs₂ p₂ top₂ left) {n₁ n₂ : Nat}
    (hn₁ : (Path.moves left).length < n₁) (hn₂ : (Path.moves left).length < n₂) :
    SameRun top₁ top₂ (fs₁.createDirectoriesWithin n₁ p₁) (fs₂.createDirectoriesWithin n₂ p₂) := by
  induction n₁ generalizing n₂ p₁ p₂ left with
  | zero => cases hn₁
  | succ n₁ ih =>
    cases n₂ with
    | zero => cases hn₂
    | succ n₂ =>
      have hcreate := h.createDirectory
      have hne₁ := h.first.nonempty
      have hne₂ := h.second.nonempty
      -- both miss the directory above, or neither does
      by_cases hmissing₁ : fs₁.createDirectory p₁ = .error .notFound
      · rw [hmissing₁] at hcreate
        generalize hmissing₂ : fs₂.createDirectory p₂ = made₂ at hcreate
        cases hcreate
        have hleft := h.first.moves_ne_nil_of_notFound hmissing₁
        obtain ⟨q₁, q₂, hparent₁, hparent₂, habove⟩ := h.parent hleft
        have hlength : (Path.moves (Path.above left)).length + 1 = (Path.moves left).length := by
          rw [Path.moves_above, List.length_dropLast]
          have hpos := List.length_pos_iff.mpr hleft
          omega
        have hrun := ih habove (show _ < n₁ by omega) (show _ < n₂ by omega)
        rw [createDirectoriesWithin_of_missing n₁ hne₁ hmissing₁ hparent₁,
          createDirectoriesWithin_of_missing n₂ hne₂ hmissing₂ hparent₂]
        have hcreates₁ := creates_createDirectoriesWithin n₁ fs₁ q₁
        have hcreates₂ := creates_createDirectoriesWithin n₂ fs₂ q₂
        generalize fs₁.createDirectoriesWithin n₁ q₁ = run₁ at hrun hcreates₁ ⊢
        generalize fs₂.createDirectoriesWithin n₂ q₂ = run₂ at hrun hcreates₂ ⊢
        obtain ⟨mid₁, outcome₁⟩ := run₁
        obtain ⟨mid₂, outcome₂⟩ := run₂
        obtain ⟨houtcome, hsame⟩ := hrun
        have hgrown₁ := hcreates₁.grown
        have hgrown₂ := hcreates₂.grown
        have hlast := (h.of_stays hgrown₁.current (fun _ => hgrown₁.keeps) hgrown₂.current
          (fun _ => hgrown₂.keeps) hsame).ensureDirectory
        cases outcome₁ <;> cases outcome₂ <;> cases houtcome
        · exact ⟨rfl, hsame⟩
        · exact hlast
      · have hmissing₂ : fs₂.createDirectory p₂ ≠ .error .notFound := by
          intro hmissing₂
          rw [hmissing₂] at hcreate
          generalize fs₁.createDirectory p₁ = made₁ at hcreate hmissing₁
          cases hcreate
          exact hmissing₁ rfl
        rw [createDirectoriesWithin_of_found n₁ hne₁ hmissing₁,
          createDirectoriesWithin_of_found n₂ hne₂ hmissing₂]
        exact h.ensureDirectory

theorem createDirectories (h : Alike fs₁ p₁ top₁ fs₂ p₂ top₂ left) :
    SameRun top₁ top₂ (fs₁.createDirectories p₁) (fs₂.createDirectories p₂) :=
  h.createDirectoriesWithin (Nat.lt_succ_of_le h.first.length_moves_le)
    (Nat.lt_succ_of_le h.second.length_moves_le)

theorem writeFile (h : Alike fs₁ p₁ top₁ fs₂ p₂ top₂ left) (content : ByteArray) :
    SameChange top₁ top₂ (fs₁.writeFile p₁ content) (fs₂.writeFile p₂ content) := by
  have hresolve := h.resolve
  unfold FileSystem.writeFile
  generalize htarget : fs₁.resolve p₁ = target₁ at hresolve ⊢
  generalize fs₂.resolve p₂ = target₂ at hresolve ⊢
  cases hresolve with
  | error e => exact .error e
  | found way node =>
    cases node with
    | directory => exact .error _
    | file old executable =>
      refine .ok (h.same.put ?_ _)
      -- the top is a directory, so the file stands below it
      rintro rfl
      have hget := (resolve_found htarget).2
      rw [List.append_nil, h.first.directory] at hget
      cases hget
  | free way slash hway =>
    cases slash with
    | true => exact .error _
    | false => exact .ok (h.same.put hway _)

end Alike

theorem entriesAt_of_not_directory {fs : FileSystem} {p : PathText}
    (h : fs.isDirectory p = false) : fs.entriesAt p = [] := by
  unfold isDirectory at h
  unfold entriesAt directory?
  split at h
  next => cases h
  next => simp

/-- Two paths lead to directories with the same tree below them. -/
structure Twins (fs₁ : FileSystem) (p₁ : PathText) (fs₂ : FileSystem) (p₂ : PathText) : Prop where
  first : fs₁.isDirectory p₁ = true
  second : fs₂.isDirectory p₂ = true
  same : SameTree fs₁ (fs₁.locate p₁) fs₂ (fs₂.locate p₂)

namespace Twins

variable {p₁ p₂ : PathText} {q : PathText}

theorem symm (h : Twins fs₁ p₁ fs₂ p₂) : Twins fs₂ p₂ fs₁ p₁ :=
  ⟨h.second, h.first, h.same.symm⟩

/-- A path that is joined to both directories goes on alike from them. -/
theorem join (h : Twins fs₁ p₁ fs₂ p₂) (hq : Zip.isEnclosed q = true) :
    Alike fs₁ (Path.join p₁ q) (fs₁.locate p₁) fs₂ (Path.join p₂ q) (fs₂.locate p₂)
      (Path.segments q) := by
  obtain ⟨hrel, hdepth⟩ := Zip.depthAfter_of_enclosed hq
  have hnul : '\x00' ∉ q.toList := fun hnul => (Zip.isEnclosed_iff q).mp hq (Or.inl hnul)
  exact ⟨.of_join (isDirectory_eq_true.mp h.first) hrel hnul,
    .of_join (isDirectory_eq_true.mp h.second) hrel hnul, h.same, hdepth⟩

theorem isDirectory (h : Twins fs₁ p₁ fs₂ p₂) (hq : Zip.isEnclosed q = true) :
    fs₂.isDirectory (Path.join p₂ q) = fs₁.isDirectory (Path.join p₁ q) :=
  (h.join hq).isDirectory

theorem isFile (h : Twins fs₁ p₁ fs₂ p₂) (hq : Zip.isEnclosed q = true) :
    fs₂.isFile (Path.join p₂ q) = fs₁.isFile (Path.join p₁ q) :=
  (h.join hq).isFile

theorem readFile (h : Twins fs₁ p₁ fs₂ p₂) (hq : Zip.isEnclosed q = true) :
    fs₂.readFile (Path.join p₂ q) = fs₁.readFile (Path.join p₁ q) :=
  (h.join hq).readFile

theorem readText? (h : Twins fs₁ p₁ fs₂ p₂) (hq : Zip.isEnclosed q = true) :
    fs₂.readText? (Path.join p₂ q) = fs₁.readText? (Path.join p₁ q) := by
  simp only [FileSystem.readText?, FileSystem.readText, h.readFile hq]

theorem digest (h : Twins fs₁ p₁ fs₂ p₂) (hq : Zip.isEnclosed q = true) :
    fs₂.digest (Path.join p₂ q) = fs₁.digest (Path.join p₁ q) := by
  simp only [FileSystem.digest, h.readFile hq]

/-- What stands at the same place below both directories is again a pair with the same tree. -/
theorem below (h : Twins fs₁ p₁ fs₂ p₂) (hq : Zip.isEnclosed q = true)
    (hdir : fs₁.isDirectory (Path.join p₁ q) = true) :
    Twins fs₁ (Path.join p₁ q) fs₂ (Path.join p₂ q) := by
  refine ⟨hdir, (h.isDirectory hq).trans hdir, ?_⟩
  have hrel := (Zip.depthAfter_of_enclosed hq).1
  rw [locate_join fs₁ hrel, locate_join fs₂ hrel, Zip.reach_of_enclosed hq (fs₁.locate p₁),
    Zip.reach_of_enclosed hq (fs₂.locate p₂)]
  exact h.same.below _

theorem walkPath (h : Twins fs₁ p₁ fs₂ p₂) (wf₁ : fs₁.WellFormed) (wf₂ : fs₂.WellFormed) :
    fs₂.walkPath p₂ = fs₁.walkPath p₁ := by
  unfold FileSystem.walkPath
  rw [isDirectory_eq_true.mp h.first, isDirectory_eq_true.mp h.second]
  refine eq_of_increasing (walk_increasing wf₂ _) (walk_increasing wf₁ _) fun file => ?_
  rw [mem_walk wf₂, mem_walk wf₁, h.same.contentAt?]

/-- Directories with the same tree have the same entries, in whatever order. -/
theorem entriesAt (h : Twins fs₁ p₁ fs₂ p₂) (wf₁ : fs₁.WellFormed) (wf₂ : fs₂.WellFormed) :
    (fs₂.entriesAt p₂).Perm (fs₁.entriesAt p₁) := by
  unfold FileSystem.entriesAt directory?
  rw [isDirectory_eq_true.mp h.first, isDirectory_eq_true.mp h.second]
  refine (List.perm_ext_iff_of_nodup (entries_nodup wf₂ _) (entries_nodup wf₁ _)).mpr ?_
  rintro ⟨name, node⟩
  rw [mem_entries wf₂, mem_entries wf₁, h.same]

theorem entriesAt_join (h : Twins fs₁ p₁ fs₂ p₂) (wf₁ : fs₁.WellFormed) (wf₂ : fs₂.WellFormed)
    (hq : Zip.isEnclosed q = true) :
    (fs₂.entriesAt (Path.join p₂ q)).Perm (fs₁.entriesAt (Path.join p₁ q)) := by
  cases hdir : fs₁.isDirectory (Path.join p₁ q) with
  | true => exact (h.below hq hdir).entriesAt wf₁ wf₂
  | false => rw [entriesAt_of_not_directory hdir,
      entriesAt_of_not_directory ((h.isDirectory hq).trans hdir)]

/-- Twins stay twins while work goes on that leaves the same trees below them. -/
theorem of_within {after₁ after₂ : FileSystem} (h : Twins fs₁ p₁ fs₂ p₂)
    (hwithin₁ : Within top₁ fs₁ after₁) (hwithin₂ : Within top₂ fs₂ after₂)
    (hsame : SameTree after₁ (fs₁.locate p₁) after₂ (fs₂.locate p₂)) :
    Twins after₁ p₁ after₂ p₂ := by
  refine ⟨isDirectory_of_stays hwithin₁.current hwithin₁.directories h.first,
    isDirectory_of_stays hwithin₂.current hwithin₂.directories h.second, ?_⟩
  rwa [locate_congr hwithin₁.current, locate_congr hwithin₂.current]

/-- Twins stay twins while work goes on elsewhere. -/
theorem of_apart {after₁ after₂ : FileSystem} (h : Twins fs₁ p₁ fs₂ p₂)
    (hwithin₁ : Within top₁ fs₁ after₁) (hwithin₂ : Within top₂ fs₂ after₂)
    (hapart₁ : ∀ way, ¬top₁ <+: fs₁.locate p₁ ++ way)
    (hapart₂ : ∀ way, ¬top₂ <+: fs₂.locate p₂ ++ way) : Twins after₁ p₁ after₂ p₂ := by
  refine h.of_within hwithin₁ hwithin₂ fun way => ?_
  rw [hwithin₁.outside _ (hapart₁ way), hwithin₂.outside _ (hapart₂ way)]
  exact h.same way

end Twins
end SdkEvidence.FileSystem
