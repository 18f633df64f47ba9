import SdkEvidence.Proofs.FileSystem.Following

/-!
# Creating directories

Creating a directory with the missing ones above it adds directories on the trail of its path and
changes nothing else, whether it succeeds or not (`createDirectories_grown`). When it succeeds the
path leads to a directory (`createDirectories_ok`). Both are proved over the ways that the recursion
can go (`Creates`).
-/
namespace SdkEvidence.FileSystem

/-- A location is as it was, or has become a directory at one of the given locations. -/
def GrownAt (made : List Location) (fs after : FileSystem) (loc : Location) : Prop :=
  after.get? loc = fs.get? loc ∨
    (loc ∈ made ∧ fs.get? loc = none ∧ after.get? loc = some .directory)

/-- The later file system differs from the earlier one by new directories, which all stand at one
of the given locations; the invariant is kept. -/
structure Grown (made : List Location) (fs after : FileSystem) : Prop where
  current : after.current = fs.current
  node : ∀ loc, GrownAt made fs after loc
  wellFormed : fs.WellFormed → after.WellFormed

theorem GrownAt.contentAt? {made : List Location} {fs after : FileSystem} {loc : Location}
    (h : GrownAt made fs after loc) : after.contentAt? loc = fs.contentAt? loc := by
  rcases h with hsame | ⟨-, habsent, hdir⟩
  · exact contentAt?_congr hsame
  · rw [contentAt?_of_directory hdir, contentAt?_of_absent habsent]

namespace Grown

variable {made : List Location} {fs mid after : FileSystem}

theorem refl (made : List Location) (fs : FileSystem) : Grown made fs fs :=
  ⟨rfl, fun _ => Or.inl rfl, id⟩

theorem keeps (h : Grown made fs after) {loc : Location} {node : Node}
    (hget : fs.get? loc = some node) : after.get? loc = some node := by
  rcases h.node loc with hsame | ⟨-, habsent, -⟩
  · rw [hsame, hget]
  · rw [hget] at habsent
    cases habsent

theorem trans (h₁ : Grown made fs mid) (h₂ : Grown made mid after) : Grown made fs after := by
  refine ⟨h₂.current.trans h₁.current, fun loc => ?_, fun wf => h₂.wellFormed (h₁.wellFormed wf)⟩
  rcases h₁.node loc with hsame | ⟨hmem, habsent, hdir⟩
  · simpa [GrownAt, hsame] using h₂.node loc
  · exact Or.inr ⟨hmem, habsent, h₂.keeps hdir⟩

theorem mono {more : List Location} (h : Grown made fs after) (hsub : ∀ loc ∈ made, loc ∈ more) :
    Grown more fs after := by
  refine ⟨h.current, fun loc => ?_, h.wellFormed⟩
  rcases h.node loc with hsame | ⟨hmem, hrest⟩
  · exact Or.inl hsame
  · exact Or.inr ⟨hsub loc hmem, hrest⟩

theorem contentAt? (h : Grown made fs after) (loc : Location) :
    after.contentAt? loc = fs.contentAt? loc :=
  (h.node loc).contentAt?

end Grown

theorem createDirectory_ok {fs after : FileSystem} {p : PathText}
    (h : fs.createDirectory p = .ok after) :
    ∃ dir name, fs.locate p = dir ++ [name] ∧ fs.get? dir = some .directory ∧ IsName name ∧
      fs.get? (fs.locate p) = none ∧ after = fs.put (fs.locate p) .directory ∧
      after.find? p = some (fs.locate p, .directory) := by
  unfold createDirectory at h
  split at h
  next => cases h
  next => cases h
  next loc slash hresolve =>
    cases h
    obtain ⟨rfl, habsent, dir, name, hsplit, hdir, hname⟩ := resolve_free hresolve
    refine ⟨dir, name, hsplit, hdir, hname, habsent, rfl, ?_⟩
    rw [find?_eq_some]
    exact resolve_put hresolve (Or.inl ⟨slash, rfl, Or.inr rfl⟩)

theorem isDirectory_eq_true {fs : FileSystem} {p : PathText} :
    fs.isDirectory p = true ↔ fs.find? p = some (fs.locate p, .directory) := by
  unfold isDirectory
  constructor
  · intro h
    split at h
    next loc hfind => rw [hfind, ← (find?_directory_trail hfind).1]
    next => cases h
  · intro h
    rw [h]

/-- What a parent passes through, the path passes through. -/
theorem trail_parent {fs : FileSystem} {p above : PathText} (h : Path.parent? p = some above) :
    ∀ loc ∈ fs.trail above, loc ∈ fs.trail p := by
  obtain ⟨habs, hsteps⟩ := Path.parent?_eq_some h
  intro loc hloc
  rw [trail, start, habs, hsteps] at hloc
  exact Location.mem_trail_iff_dropLast.mpr (Or.inl hloc)

theorem createDirectory_grown {fs after : FileSystem} {p : PathText}
    (h : fs.createDirectory p = .ok after) : Grown (fs.trail p) fs after := by
  obtain ⟨dir, name, hsplit, hdir, hname, habsent, rfl, -⟩ := createDirectory_ok h
  refine ⟨put_current _ _ _, fun loc => ?_, fun wf => ?_⟩
  · by_cases hloc : loc = fs.locate p
    · subst hloc
      exact Or.inr ⟨locate_mem_trail fs p, habsent, get?_put_self fs (by simp [hsplit]) _⟩
    · exact Or.inl (get?_put_of_ne fs hloc _)
  · rw [hsplit]
    exact wf.put hdir hname (Or.inl rfl)

/-! ## Directories and those above them -/

/-- Creates a directory whose parent exists. A failure counts as success where a directory already
stands. -/
def ensureDirectory (fs : FileSystem) (p : PathText) : FileSystem × Except OsError Unit :=
  match fs.createDirectory p with
  | .ok made => (made, .ok ())
  | .error e => (fs, if fs.isDirectory p then .ok () else .error e)

theorem ensureDirectory_grown (fs : FileSystem) (p : PathText) :
    Grown (fs.trail p) fs (fs.ensureDirectory p).1 := by
  unfold ensureDirectory
  split
  next made hmade => exact createDirectory_grown hmade
  next => exact Grown.refl _ _

theorem ensureDirectory_ok {fs after : FileSystem} {p : PathText}
    (h : fs.ensureDirectory p = (after, .ok ())) :
    after.find? p = some (fs.locate p, .directory) := by
  unfold ensureDirectory at h
  split at h
  next made hmade =>
    cases h
    obtain ⟨_, _, _, _, _, _, _, hfind⟩ := createDirectory_ok hmade
    exact hfind
  next e _ =>
    obtain ⟨rfl, hsettled⟩ := Prod.mk.inj h
    split at hsettled
    next hdir => exact isDirectory_eq_true.mp hdir
    next => cases hsettled

theorem createDirectoriesWithin_of_found {fs : FileSystem} {p : PathText} (depth : Nat)
    (hp : p ≠ "") (h : fs.createDirectory p ≠ .error .notFound) :
    fs.createDirectoriesWithin (depth + 1) p = fs.ensureDirectory p := by
  unfold createDirectoriesWithin ensureDirectory
  rw [if_neg hp]
  split
  next hmade => rw [hmade]
  next hmissing => exact absurd hmissing h
  next hfails => rw [hfails]

theorem createDirectoriesWithin_of_missing {fs : FileSystem} {p above : PathText} (depth : Nat)
    (hp : p ≠ "") (h : fs.createDirectory p = .error .notFound)
    (habove : Path.parent? p = some above) :
    fs.createDirectoriesWithin (depth + 1) p
      = match fs.createDirectoriesWithin depth above with
        | (mid, .error e) => (mid, .error e)
        | (mid, .ok ()) => mid.ensureDirectory p := by
  rw [createDirectoriesWithin, if_neg hp, h, habove]
  rfl

/-- The ways that creating a directory and the missing ones above it can go. -/
inductive Creates (fs : FileSystem) : PathText → FileSystem × Except OsError Unit → Prop where
  | nowhere : Creates fs "" (fs, .ok ())
  | stuck (p : PathText) : Creates fs p (fs, .error .notFound)
  | here (p : PathText) : Creates fs p (fs.ensureDirectory p)
  | unraised {p above : PathText} {mid : FileSystem} {e : OsError}
      (habove : Path.parent? p = some above) (hmid : Creates fs above (mid, .error e)) :
      Creates fs p (mid, .error e)
  | raised {p above : PathText} {mid : FileSystem} (habove : Path.parent? p = some above)
      (hmid : Creates fs above (mid, .ok ())) : Creates fs p (mid.ensureDirectory p)

theorem creates_createDirectoriesWithin (depth : Nat) (fs : FileSystem) (p : PathText) :
    Creates fs p (fs.createDirectoriesWithin depth p) := by
  induction depth generalizing p with
  | zero => exact .stuck p
  | succ depth ih =>
    by_cases hp : p = ""
    · subst hp
      exact .nowhere
    by_cases hmissing : fs.createDirectory p = .error .notFound
    · cases habove : Path.parent? p with
      | none =>
        rw [createDirectoriesWithin, if_neg hp, hmissing, habove]
        exact .stuck p
      | some above =>
        have hrest := ih above
        rw [createDirectoriesWithin_of_missing depth hp hmissing habove]
        split
        next mid e hmid =>
          rw [hmid] at hrest
          exact .unraised habove hrest
        next mid hmid =>
          rw [hmid] at hrest
          exact .raised habove hrest
    · rw [createDirectoriesWithin_of_found depth hp hmissing]
      exact .here p

theorem creates_createDirectories {fs : FileSystem} {p : PathText}
    {result : FileSystem × Except OsError Unit} (h : fs.createDirectories p = result) :
    Creates fs p result :=
  h ▸ creates_createDirectoriesWithin _ fs p

theorem Creates.grown {fs : FileSystem} {p : PathText} {result : FileSystem × Except OsError Unit}
    (h : Creates fs p result) : Grown (fs.trail p) fs result.1 := by
  induction h with
  | nowhere => exact Grown.refl _ _
  | stuck => exact Grown.refl _ _
  | here p => exact ensureDirectory_grown fs p
  | unraised habove _ ih => exact ih.mono (trail_parent habove)
  | @raised p above mid habove _ ih =>
    have hlast := ensureDirectory_grown mid p
    rw [trail_congr ih.current] at hlast
    exact (ih.mono (trail_parent habove)).trans hlast

theorem Creates.find? {fs after : FileSystem} {p : PathText}
    (h : Creates fs p (after, .ok ())) (hp : p ≠ "") :
    after.find? p = some (fs.locate p, .directory) := by
  generalize hresult : (after, Except.ok ()) = result at h
  cases h with
  | nowhere => exact absurd rfl hp
  | stuck => cases hresult
  | here => exact ensureDirectory_ok hresult.symm
  | unraised => cases hresult
  | @raised _ above mid _ hmid =>
    rw [ensureDirectory_ok hresult.symm, locate_congr hmid.grown.current]

variable {fs after : FileSystem} {p : PathText} {outcome : Except OsError Unit}

theorem createDirectories_grown (h : fs.createDirectories p = (after, outcome)) :
    Grown (fs.trail p) fs after :=
  (creates_createDirectories h).grown

theorem createDirectories_ok (h : fs.createDirectories p = (after, .ok ())) (hp : p ≠ "") :
    after.find? p = some (fs.locate p, .directory) :=
  (creates_createDirectories h).find? hp

/-- A directory that is there need not be created. -/
theorem createDirectories_of_isDirectory (h : fs.isDirectory p = true) :
    fs.createDirectories p = (fs, .ok ()) := by
  have hresolve := find?_eq_some.mp (isDirectory_eq_true.mp h)
  have hempty : p ≠ "" := by
    rintro rfl
    cases hresolve
  simp [createDirectories, createDirectoriesWithin, hempty, createDirectory, hresolve, h]

theorem isDirectory_of_stays (hcurrent : after.current = fs.current)
    (hstays : ∀ d, fs.get? d = some .directory → after.get? d = some .directory)
    (h : fs.isDirectory p = true) : after.isDirectory p = true := by
  rw [isDirectory_eq_true] at h ⊢
  rw [find?_directory_of_stays hcurrent hstays h, locate_congr hcurrent]

end SdkEvidence.FileSystem
