import SdkEvidence.FileSystem.Resolve
import SdkEvidence.Proofs.FileSystem.Nodes
import SdkEvidence.Proofs.FileSystem.Steps

/-!
# Following a path

A path is followed to a target exactly along the ways that segments can be taken (`Follows`,
`follow_eq_ok_iff`). So a path that leads anywhere leads where its steps say (`resolve_found`,
`resolve_free`), and all that it passes through are directories (`resolve_trail`). What it leads to
depends only on the locations on its trail (`resolve_congr`).
-/
namespace SdkEvidence

namespace Path

theorem body_ne_nil (p : PathText) : body p ≠ [] := by
  cases habs : isAbsolute p with
  | false => simpa [body, habs] using segments_ne_nil p
  | true =>
    obtain ⟨q, rfl⟩ := eq_slash_append_of_absolute habs
    simpa [body, segments_slash_append] using segments_ne_nil q

theorem slash_not_mem_of_mem_body {p : PathText} {s : String} (hs : s ∈ body p) :
    '/' ∉ s.toList := by
  apply slash_not_mem_of_mem_segments (p := p)
  unfold body at hs
  split at hs
  · exact List.mem_of_mem_drop hs
  · exact hs

/-- The segments that lead somewhere. -/
def moves (segments : List String) : List String :=
  segments.filter fun segment => !isFiller segment

theorem moves_body (p : PathText) : moves (body p) = steps p :=
  filter_body p

theorem moves_cons_filler {segment : String} (h : isFiller segment = true) (rest : List String) :
    moves (segment :: rest) = moves rest := by
  simp [moves, h]

theorem moves_cons {segment : String} (h : isFiller segment = false) (rest : List String) :
    moves (segment :: rest) = segment :: moves rest := by
  simp [moves, h]

theorem moves_of_all_empty {l : List String} (h : l.all (· == "") = true) : moves l = [] := by
  simp only [List.all_eq_true, beq_iff_eq] at h
  simp only [moves, List.filter_eq_nil_iff]
  intro segment hsegment
  simp [h segment hsegment, isFiller]

end Path

namespace FileSystem

/-- Where the first step of a path is taken from. -/
def start (fs : FileSystem) (p : PathText) : Location :=
  if Path.isAbsolute p then [] else fs.current

/-- The location that the steps of a path lead to, whatever stands there. -/
def locate (fs : FileSystem) (p : PathText) : Location :=
  Location.reach (fs.start p) (Path.steps p)

/-- The locations that a path passes through, its end included. -/
def trail (fs : FileSystem) (p : PathText) : List Location :=
  Location.trail (fs.start p) (Path.steps p)

theorem locate_mem_trail (fs : FileSystem) (p : PathText) : fs.locate p ∈ fs.trail p :=
  Location.reach_mem_trail _ _

theorem start_join (fs : FileSystem) {p q : PathText} (hq : Path.isAbsolute q = false) :
    fs.start (Path.join p q) = fs.start p := by
  simp [start, Path.isAbsolute_join hq]

theorem locate_join (fs : FileSystem) {p q : PathText} (hq : Path.isAbsolute q = false) :
    fs.locate (Path.join p q) = Location.reach (fs.locate p) (Path.steps q) := by
  simp [locate, start_join fs hq, Path.steps_join hq, Location.reach_append]

theorem mem_trail_join (fs : FileSystem) {p q : PathText} (hq : Path.isAbsolute q = false)
    {loc : Location} :
    loc ∈ fs.trail (Path.join p q)
      ↔ loc ∈ fs.trail p ∨ loc ∈ Location.trail (fs.locate p) (Path.steps q) := by
  simp [trail, locate, start_join fs hq, Path.steps_join hq, Location.mem_trail_append]

theorem start_congr {fs after : FileSystem} (hcurrent : after.current = fs.current)
    (p : PathText) : after.start p = fs.start p := by
  simp [start, hcurrent]

theorem locate_congr {fs after : FileSystem} (hcurrent : after.current = fs.current)
    (p : PathText) : after.locate p = fs.locate p := by
  simp [locate, start_congr hcurrent]

theorem trail_congr {fs after : FileSystem} (hcurrent : after.current = fs.current)
    (p : PathText) : after.trail p = fs.trail p := by
  simp [trail, start_congr hcurrent]

/-! ## Each way a segment can be taken -/

section Segment

variable {fs : FileSystem} {place : Location} {segment : String}

/-- A step can be taken from a directory: up, or to something that is there and whose name is not
too long. -/
def Passes (fs : FileSystem) (place : Location) (segment : String) : Prop :=
  segment = ".." ∨
    (¬nameLimit < segment.utf8ByteSize ∧ (fs.get? (place ++ [segment])).isSome = true)

theorem follow_cons_filler (hdir : fs.get? place = some .directory)
    (hfiller : Path.isFiller segment = true) (rest : List String) :
    fs.follow place (segment :: rest) = fs.follow place rest := by
  rw [follow, hdir]
  simp only [if_pos hfiller]

theorem follow_cons_step (hdir : fs.get? place = some .directory)
    (hfiller : Path.isFiller segment = false) (hpasses : Passes fs place segment)
    (rest : List String) :
    fs.follow place (segment :: rest) = fs.follow (Location.step place segment) rest := by
  rw [follow, hdir]
  by_cases hup : segment = ".."
  · subst hup
    simp only [hfiller, Bool.false_eq_true, if_false, if_true, Location.step]
  · obtain ⟨hfits, hsome⟩ := hpasses.resolve_left hup
    simp only [hfiller, Bool.false_eq_true, if_false, if_neg hup, if_neg hfits, if_pos hsome,
      Location.step]

theorem follow_cons_free (hdir : fs.get? place = some .directory)
    (hfiller : Path.isFiller segment = false) (hup : segment ≠ "..")
    (hfits : ¬nameLimit < segment.utf8ByteSize) (habsent : fs.get? (place ++ [segment]) = none)
    {rest : List String} (hrest : rest.all (· == "") = true) :
    fs.follow place (segment :: rest) = .ok (.free (place ++ [segment]) !rest.isEmpty) := by
  rw [follow, hdir]
  simp only [hfiller, Bool.false_eq_true, if_false, if_neg hup, if_neg hfits, habsent,
    Option.isSome_none, if_pos hrest]

end Segment

/-- The ways that lead to a target: the path ends there, or it goes on past a filler or by a step,
or only slashes come after a name that nothing has yet. -/
inductive Follows (fs : FileSystem) : Location → List String → Target → Prop where
  | here {place : Location} {node : Node} (hget : fs.get? place = some node) :
      Follows fs place [] (.found place node)
  | filler {place : Location} {segment : String} {rest : List String} {target : Target}
      (hdir : fs.get? place = some .directory) (hfiller : Path.isFiller segment = true)
      (hrest : Follows fs place rest target) : Follows fs place (segment :: rest) target
  | step {place : Location} {segment : String} {rest : List String} {target : Target}
      (hdir : fs.get? place = some .directory) (hfiller : Path.isFiller segment = false)
      (hpasses : Passes fs place segment)
      (hrest : Follows fs (Location.step place segment) rest target) :
      Follows fs place (segment :: rest) target
  | free {place : Location} {segment : String} {rest : List String}
      (hdir : fs.get? place = some .directory) (hfiller : Path.isFiller segment = false)
      (hup : segment ≠ "..") (hfits : ¬nameLimit < segment.utf8ByteSize)
      (habsent : fs.get? (place ++ [segment]) = none) (hrest : rest.all (· == "") = true) :
      Follows fs place (segment :: rest) (.free (place ++ [segment]) !rest.isEmpty)

theorem Follows.follow {fs : FileSystem} {place : Location} {segments : List String}
    {target : Target} (h : Follows fs place segments target) :
    fs.follow place segments = .ok target := by
  induction h with
  | here hget => simp [FileSystem.follow, hget]
  | filler hdir hfiller _ ih => rw [follow_cons_filler hdir hfiller, ih]
  | step hdir hfiller hpasses _ ih => rw [follow_cons_step hdir hfiller hpasses, ih]
  | free hdir hfiller hup hfits habsent hrest =>
    exact follow_cons_free hdir hfiller hup hfits habsent hrest

theorem follows_of_follow {fs : FileSystem} {segments : List String} {place : Location}
    {target : Target} (h : fs.follow place segments = .ok target) :
    Follows fs place segments target := by
  induction segments generalizing place with
  | nil =>
    unfold follow at h
    split at h
    next hget =>
      cases h
      exact .here hget
    next => cases h
  | cons segment rest ih =>
    unfold follow at h
    split at h
    next => cases h
    next => cases h
    next hdir =>
      split at h
      next hfiller => exact .filler hdir hfiller (ih h)
      next hfiller =>
        have hfiller : Path.isFiller segment = false := by simpa using hfiller
        split at h
        next hup =>
          exact .step hdir hfiller (Or.inl hup) (by simpa [Location.step, hup] using ih h)
        next hup =>
          split at h
          next => cases h
          next hfits =>
            split at h
            next hsome =>
              exact .step hdir hfiller (Or.inr ⟨hfits, hsome⟩)
                (by simpa [Location.step, hup] using ih h)
            next habsent =>
              split at h
              next hrest =>
                cases h
                exact .free hdir hfiller hup hfits (by simpa using habsent) hrest
              next => cases h

theorem follow_eq_ok_iff {fs : FileSystem} {place : Location} {segments : List String}
    {target : Target} :
    fs.follow place segments = .ok target ↔ Follows fs place segments target :=
  ⟨follows_of_follow, Follows.follow⟩

/-- Segments are followed from a directory. -/
theorem Follows.directory {fs : FileSystem} {place : Location} {segment : String}
    {rest : List String} {target : Target} (h : Follows fs place (segment :: rest) target) :
    fs.get? place = some .directory := by
  cases h with
  | filler hdir => exact hdir
  | step hdir => exact hdir
  | free hdir => exact hdir

/-! ## What following a path tells -/

theorem follow_found {fs : FileSystem} {segments : List String} {place loc : Location}
    {node : Node} (h : fs.follow place segments = .ok (.found loc node)) :
    loc = Location.reach place (Path.moves segments) ∧ fs.get? loc = some node := by
  rw [follow_eq_ok_iff] at h
  generalize htarget : Target.found loc node = target at h
  induction h with
  | here hget =>
    cases htarget
    exact ⟨rfl, hget⟩
  | filler _ hfiller _ ih =>
    rw [Path.moves_cons_filler hfiller]
    exact ih htarget
  | step _ hfiller _ _ ih =>
    rw [Path.moves_cons hfiller]
    exact ih htarget
  | free => cases htarget

/-- A free place is a name that nothing has yet, in a directory. -/
theorem follow_free {fs : FileSystem} {segments : List String} {place loc : Location}
    {slash : Bool} (h : fs.follow place segments = .ok (.free loc slash)) :
    loc = Location.reach place (Path.moves segments) ∧ fs.get? loc = none ∧
      ∃ dir name, loc = dir ++ [name] ∧ fs.get? dir = some .directory ∧ name ∈ segments ∧
        Path.isFiller name = false ∧ name ≠ ".." := by
  rw [follow_eq_ok_iff] at h
  generalize htarget : Target.free loc slash = target at h
  induction h with
  | here => cases htarget
  | filler _ hfiller _ ih =>
    obtain ⟨hloc, habsent, dir, name, hsplit, hdir, hmem, hkind⟩ := ih htarget
    rw [Path.moves_cons_filler hfiller]
    exact ⟨hloc, habsent, dir, name, hsplit, hdir, List.mem_cons_of_mem _ hmem, hkind⟩
  | step _ hfiller _ _ ih =>
    obtain ⟨hloc, habsent, dir, name, hsplit, hdir, hmem, hkind⟩ := ih htarget
    rw [Path.moves_cons hfiller]
    exact ⟨hloc, habsent, dir, name, hsplit, hdir, List.mem_cons_of_mem _ hmem, hkind⟩
  | @free place segment rest hdir hfiller hup _ habsent hrest =>
    cases htarget
    refine ⟨?_, habsent, place, segment, rfl, hdir, by simp, hfiller, hup⟩
    rw [Path.moves_cons hfiller, Path.moves_of_all_empty hrest]
    simp [Location.step, hup]

/-- Every segment but the last step is taken in a directory. -/
theorem follow_trail {fs : FileSystem} {segments : List String} {place : Location}
    {target : Target} (h : fs.follow place segments = .ok target) (hne : segments ≠ []) :
    ∀ d ∈ Location.trail place (Path.moves segments).dropLast, fs.get? d = some .directory := by
  rw [follow_eq_ok_iff] at h
  induction h with
  | here => exact absurd rfl hne
  | @filler place segment rest target hdir hfiller _ ih =>
    rw [Path.moves_cons_filler hfiller]
    by_cases hnil : rest = []
    · subst hnil
      simpa [Path.moves, Location.trail] using hdir
    · exact ih hnil
  | @step place segment rest target hdir hfiller _ _ ih =>
    rw [Path.moves_cons hfiller]
    cases hmoves : Path.moves rest with
    | nil => simpa [Location.trail] using hdir
    | cons first more =>
      have hnil : rest ≠ [] := by
        rintro rfl
        cases hmoves
      intro d hd
      rw [List.dropLast_cons_cons, Location.trail, List.mem_cons] at hd
      rcases hd with rfl | hd
      · exact hdir
      · exact ih hnil d (hmoves ▸ hd)
  | @free place segment rest hdir hfiller _ _ _ hrest =>
    rw [Path.moves_cons hfiller, Path.moves_of_all_empty hrest]
    simpa [Location.trail] using hdir

theorem follow_congr {fs after : FileSystem} {segments : List String} {place : Location}
    (h : ∀ d ∈ Location.trail place (Path.moves segments), after.get? d = fs.get? d) :
    after.follow place segments = fs.follow place segments := by
  -- failures are to agree as well, so the induction is on the segments and not on `Follows`
  induction segments generalizing place with
  | nil => simp [follow, h place (Location.start_mem_trail _ _)]
  | cons segment rest ih =>
    have hplace := h place (Location.start_mem_trail _ _)
    unfold follow
    rw [hplace]
    cases hfiller : Path.isFiller segment with
    | true =>
      rw [Path.moves_cons_filler hfiller] at h
      simp only [if_true, ih h]
    | false =>
      rw [Path.moves_cons hfiller] at h
      have hrest : ∀ d ∈ Location.trail (Location.step place segment) (Path.moves rest),
          after.get? d = fs.get? d := fun d hd => h d (by simp [Location.trail, hd])
      by_cases hup : segment = ".."
      · have hstep : Location.step place segment = place.dropLast := by simp [Location.step, hup]
        rw [hstep] at hrest
        simp only [hup, if_true, Bool.false_eq_true, if_false, ih hrest]
      · have hstep : Location.step place segment = place ++ [segment] := by
          simp [Location.step, hup]
        rw [hstep] at hrest
        have hnext := hrest _ (Location.start_mem_trail _ _)
        simp only [hup, if_false, Bool.false_eq_true, hnext, ih hrest]

theorem follow_fillers_directory {fs : FileSystem} {place : Location} {fillers : List String}
    (hdir : fs.get? place = some .directory) (hfillers : Path.moves fillers = []) :
    fs.follow place fillers = .ok (.found place .directory) := by
  induction fillers with
  | nil => simp [follow, hdir]
  | cons segment rest ih =>
    cases hfiller : Path.isFiller segment with
    | true =>
      rw [Path.moves_cons_filler hfiller] at hfillers
      rw [follow_cons_filler hdir hfiller, ih hfillers]
    | false =>
      rw [Path.moves_cons hfiller] at hfillers
      cases hfillers

/-- Whether a path that leads to a target leads to a node that is put there: a name with a slash
after it can only become a directory. -/
def Target.Takes (target : Target) (loc : Location) (node : Node) : Prop :=
  (∃ slash, target = .free loc slash ∧ (slash = false ∨ node = .directory)) ∨
    ∃ content executable, target = .found loc (.file content executable)

/-- What was put at the end of a path is found there. -/
theorem follow_put {fs : FileSystem} {segments : List String} {place loc : Location} {node : Node}
    {target : Target} (h : fs.follow place segments = .ok target)
    (htakes : Target.Takes target loc node) :
    (fs.put loc node).follow place segments = .ok (.found loc node) := by
  have hloc : fs.get? loc ≠ some .directory := by
    rcases htakes with ⟨slash, rfl, -⟩ | ⟨content, executable, rfl⟩
    · simp [(follow_free h).2.1]
    · simp [(follow_found h).2]
  have hne : loc ≠ [] := by
    rintro rfl
    exact hloc (get?_nil fs)
  -- the directories on the way are not what is put, so they stay
  have hstays {d : Location} (hdir : fs.get? d = some .directory) :
      (fs.put loc node).get? d = some .directory := by
    rwa [get?_put_of_ne fs]
    rintro rfl
    exact hloc hdir
  rw [follow_eq_ok_iff] at h
  induction h with
  | here hget =>
    rcases htakes with ⟨slash, hfree, -⟩ | ⟨content, executable, hfound⟩
    · cases hfree
    · cases hfound
      simp [follow, get?_put_self fs hne]
  | filler hdir hfiller _ ih =>
    rw [follow_cons_filler (hstays hdir) hfiller]
    exact ih htakes
  | @step place segment rest target hdir hfiller hpasses _ ih =>
    have hpasses' : Passes (fs.put loc node) place segment := by
      refine hpasses.imp_right fun ⟨hfits, hsome⟩ => ⟨hfits, ?_⟩
      by_cases hhere : place ++ [segment] = loc
      · simp [hhere, get?_put_self fs hne]
      · rwa [get?_put_of_ne fs hhere]
    rw [follow_cons_step (hstays hdir) hfiller hpasses']
    exact ih htakes
  | @free place segment rest hdir hfiller hup hfits _ hrest =>
    have hkind : place ++ [segment] = loc ∧ (rest = [] ∨ node = .directory) := by
      rcases htakes with ⟨slash, hfree, hkind⟩ | ⟨content, executable, hfound⟩
      · cases hfree
        simpa using hkind
      · cases hfound
    obtain ⟨rfl, hkind⟩ := hkind
    have hhere := get?_put_self fs hne node
    have hpasses : Passes (fs.put (place ++ [segment]) node) place segment :=
      Or.inr ⟨hfits, by simp [hhere]⟩
    rw [follow_cons_step (hstays hdir) hfiller hpasses, Location.step, if_neg hup]
    rcases hkind with rfl | rfl
    · simp [follow, hhere]
    · exact follow_fillers_directory hhere (Path.moves_of_all_empty hrest)

theorem resolve_eq_follow {fs : FileSystem} {p : PathText} {target : Target}
    (h : fs.resolve p = .ok target) :
    fs.follow (fs.start p) (Path.body p) = .ok target := by
  unfold resolve at h
  split at h
  next => cases h
  next =>
    split at h
    next => cases h
    next => exact h

theorem resolve_found {fs : FileSystem} {p : PathText} {loc : Location} {node : Node}
    (h : fs.resolve p = .ok (.found loc node)) :
    loc = fs.locate p ∧ fs.get? loc = some node := by
  have hfound := follow_found (resolve_eq_follow h)
  rwa [Path.moves_body] at hfound

theorem resolve_free {fs : FileSystem} {p : PathText} {loc : Location} {slash : Bool}
    (h : fs.resolve p = .ok (.free loc slash)) :
    loc = fs.locate p ∧ fs.get? loc = none ∧
      ∃ dir name, loc = dir ++ [name] ∧ fs.get? dir = some .directory ∧ IsName name := by
  obtain ⟨hloc, habsent, dir, name, hsplit, hdir, hmem, hfiller, hup⟩ :=
    follow_free (resolve_eq_follow h)
  rw [Path.moves_body] at hloc
  simp only [Path.isFiller, Bool.or_eq_false_iff, beq_eq_false_iff_ne] at hfiller
  exact ⟨hloc, habsent, dir, name, hsplit, hdir,
    ⟨hfiller.1, hfiller.2, hup, Path.slash_not_mem_of_mem_body hmem⟩⟩

theorem resolve_trail {fs : FileSystem} {p : PathText} {target : Target}
    (h : fs.resolve p = .ok target) :
    ∀ d ∈ Location.trail (fs.start p) (Path.steps p).dropLast, fs.get? d = some .directory := by
  have htrail := follow_trail (resolve_eq_follow h) (Path.body_ne_nil p)
  rwa [Path.moves_body] at htrail

theorem resolve_congr {fs after : FileSystem} {p : PathText} (hcurrent : after.current = fs.current)
    (h : ∀ d ∈ fs.trail p, after.get? d = fs.get? d) : after.resolve p = fs.resolve p := by
  have hfollow : after.follow (fs.start p) (Path.body p) = fs.follow (fs.start p) (Path.body p) :=
    follow_congr (by rwa [Path.moves_body])
  unfold resolve
  rw [hcurrent]
  unfold start at hfollow
  rw [hfollow]

theorem resolve_put {fs : FileSystem} {p : PathText} {loc : Location} {node : Node}
    {target : Target} (h : fs.resolve p = .ok target) (htakes : Target.Takes target loc node) :
    (fs.put loc node).resolve p = .ok (.found loc node) := by
  have hfollow := follow_put (resolve_eq_follow h) htakes
  unfold resolve at h ⊢
  split at h
  next => cases h
  next hempty =>
    split at h
    next => cases h
    next hnul =>
      rw [if_neg hempty, if_neg hnul, put_current]
      exact hfollow

theorem find?_eq_some {fs : FileSystem} {p : PathText} {loc : Location} {node : Node} :
    fs.find? p = some (loc, node) ↔ fs.resolve p = .ok (.found loc node) := by
  unfold find?
  split
  next h => simp [h]
  next h =>
    constructor
    · intro hnone
      cases hnone
    · intro hfound
      exact absurd hfound (h loc node)

/-- The whole trail of a path to a directory consists of directories. -/
theorem find?_directory_trail {fs : FileSystem} {p : PathText} {loc : Location}
    (h : fs.find? p = some (loc, .directory)) :
    loc = fs.locate p ∧ ∀ d ∈ fs.trail p, fs.get? d = some .directory := by
  have hresolve := find?_eq_some.mp h
  obtain ⟨hloc, hget⟩ := resolve_found hresolve
  refine ⟨hloc, fun d hd => ?_⟩
  rcases Location.mem_trail_iff_dropLast.mp hd with hd | rfl
  · exact resolve_trail hresolve d hd
  · rw [hloc] at hget
    exact hget

/-- A path to a directory keeps leading there as long as directories stay. -/
theorem find?_directory_of_stays {fs after : FileSystem} {p : PathText} {loc : Location}
    (hcurrent : after.current = fs.current)
    (hstays : ∀ d, fs.get? d = some .directory → after.get? d = some .directory)
    (h : fs.find? p = some (loc, .directory)) : after.find? p = some (loc, .directory) := by
  obtain ⟨-, htrail⟩ := find?_directory_trail h
  rw [find?_eq_some] at h ⊢
  rw [resolve_congr hcurrent fun d hd => by rw [hstays d (htrail d hd), htrail d hd]]
  exact h

end FileSystem
end SdkEvidence
