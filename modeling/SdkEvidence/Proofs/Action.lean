import SdkEvidence.Action

/-!
# Runs of actions

How a run of a composed action is made of the runs of its parts. A run that succeeds has passed
through all of them (`runIn_bind_ok`); one that fails ends at the first part that fails
(`runIn_bind_error`).
-/
namespace SdkEvidence.Action

variable {α β ε : Type} {fs after : FileSystem}

@[simp] theorem runIn_pure (a : α) (fs : FileSystem) :
    (pure a : Action α).runIn fs = (.ok a, fs) := rfl

@[simp] theorem runIn_throw (e : Failure) (fs : FileSystem) :
    (throw e : Action α).runIn fs = (.error e, fs) := rfl

@[simp] theorem runIn_get (fs : FileSystem) : (get : Action FileSystem).runIn fs = (.ok fs, fs) :=
  rfl

@[simp] theorem runIn_set (fs later : FileSystem) :
    (set later : Action PUnit).runIn fs = (.ok ⟨⟩, later) := rfl

@[simp] theorem runIn_ask (question : FileSystem → α) (fs : FileSystem) :
    (ask question).runIn fs = (.ok (question fs), fs) := rfl

theorem runIn_bind (action : Action α) (next : α → Action β) (fs : FileSystem) :
    (action >>= next).runIn fs = match action.runIn fs with
      | (.ok a, mid) => (next a).runIn mid
      | (.error e, mid) => (.error e, mid) := by
  unfold runIn
  change (let (outcome, mid) := action.run fs; ExceptT.bindCont next outcome mid) = _
  rcases action.run fs with ⟨outcome, mid⟩
  cases outcome <;> rfl

/-- A run ends in the first part when that fails, and in the second otherwise. -/
theorem runIn_bind_iff {action : Action α} {next : α → Action β} {outcome : Except Failure β} :
    (action >>= next).runIn fs = (outcome, after)
      ↔ (∃ e, action.runIn fs = (.error e, after) ∧ outcome = .error e) ∨
        ∃ a mid, action.runIn fs = (.ok a, mid) ∧ (next a).runIn mid = (outcome, after) := by
  rw [runIn_bind]
  rcases action.runIn fs with ⟨first, mid⟩
  cases first with
  | ok a =>
    constructor
    · exact fun h => Or.inr ⟨a, mid, rfl, h⟩
    · rintro (⟨_, hfirst, -⟩ | ⟨_, _, hfirst, h⟩)
      · cases hfirst
      · cases hfirst
        exact h
  | error e =>
    constructor
    · intro h
      cases h
      exact Or.inl ⟨e, rfl, rfl⟩
    · rintro (⟨_, hfirst, rfl⟩ | ⟨_, _, hfirst, -⟩)
      · cases hfirst
        rfl
      · cases hfirst

/-- A run that succeeds has passed through both parts. -/
theorem runIn_bind_ok {action : Action α} {next : α → Action β} {b : β} :
    (action >>= next).runIn fs = (.ok b, after)
      ↔ ∃ a mid, action.runIn fs = (.ok a, mid) ∧ (next a).runIn mid = (.ok b, after) := by
  rw [runIn_bind_iff]
  simp

/-- A run that fails has failed in the first part, or in the second after the first succeeded. -/
theorem runIn_bind_error {action : Action α} {next : α → Action β} {e : Failure} :
    (action >>= next).runIn fs = (.error e, after)
      ↔ action.runIn fs = (.error e, after) ∨
        ∃ a mid, action.runIn fs = (.ok a, mid) ∧ (next a).runIn mid = (.error e, after) := by
  rw [runIn_bind_iff]
  simp

theorem runIn_step (explain : ε → Failure) (operation : FileSystem → FileSystem × Except ε α)
    (fs : FileSystem) :
    (step explain operation).runIn fs = match operation fs with
      | (after, .ok a) => (.ok a, after)
      | (after, .error e) => (.error (explain e), after) := by
  unfold step
  rw [runIn_bind, runIn_get]
  rcases hrun : operation fs with ⟨after, outcome⟩
  cases outcome <;> simp [runIn_bind, hrun, -bind_pure_comp]

theorem runIn_step_leaves {explain : ε → Failure}
    {operation : FileSystem → FileSystem × Except ε α} {outcome : Except Failure α}
    (h : (step explain operation).runIn fs = (outcome, after)) :
    ∃ result, operation fs = (after, result) := by
  rw [runIn_step] at h
  rcases hrun : operation fs with ⟨mid, result⟩
  rw [hrun] at h
  cases result <;> cases h <;> exact ⟨_, rfl⟩

theorem runIn_step_ok {explain : ε → Failure} {operation : FileSystem → FileSystem × Except ε α}
    {a : α} :
    (step explain operation).runIn fs = (.ok a, after) ↔ operation fs = (after, .ok a) := by
  rw [runIn_step]
  rcases operation fs with ⟨mid, outcome⟩
  cases outcome <;> simp [and_comm]

theorem runIn_step_error {explain : ε → Failure} {operation : FileSystem → FileSystem × Except ε α}
    {e : Failure} :
    (step explain operation).runIn fs = (.error e, after)
      ↔ ∃ reason, operation fs = (after, .error reason) ∧ e = explain reason := by
  rw [runIn_step]
  rcases operation fs with ⟨mid, outcome⟩
  cases outcome with
  | ok a => simp
  | error reason =>
    constructor
    · intro h
      cases h
      exact ⟨reason, rfl, rfl⟩
    · rintro ⟨_, hrun, rfl⟩
      cases hrun
      rfl

theorem runIn_change (explain : ε → Failure) (operation : FileSystem → Except ε FileSystem)
    (fs : FileSystem) :
    (change explain operation).runIn fs = match operation fs with
      | .ok after => (.ok (), after)
      | .error e => (.error (explain e), fs) := by
  unfold change
  rw [runIn_bind, runIn_get]
  dsimp only
  cases operation fs <;> simp

theorem runIn_change_ok {explain : ε → Failure} {operation : FileSystem → Except ε FileSystem}
    {u : Unit} :
    (change explain operation).runIn fs = (.ok u, after) ↔ operation fs = .ok after := by
  rw [runIn_change]
  cases operation fs <;> simp

theorem runIn_change_error {explain : ε → Failure} {operation : FileSystem → Except ε FileSystem}
    {e : Failure} :
    (change explain operation).runIn fs = (.error e, after)
      ↔ ∃ reason, operation fs = .error reason ∧ e = explain reason ∧ after = fs := by
  rw [runIn_change]
  cases operation fs with
  | ok later => simp
  | error reason => simp [eq_comm]

theorem runIn_withTemporary (parent : PathText) (lead : String) (keep : Bool)
    (work : PathText → Action α) (fs : FileSystem) :
    (withTemporary parent lead keep work).runIn fs
      = match fs.makeTemporary parent lead .directory with
        | .error e => (.error (.ofOsError e), fs)
        | .ok (made, mid) =>
            match (work made.path).runIn mid with
            | (outcome, after) =>
                (outcome, if keep then after else after.removeTree made.location) := by
  unfold withTemporary
  rw [runIn_bind, runIn_get]
  dsimp only
  rw [runIn_bind]
  cases fs.makeTemporary parent lead .directory with
  | error e => simp
  | ok result =>
    obtain ⟨made, mid⟩ := result
    rcases hwork : (work made.path).runIn mid with ⟨outcome, after⟩
    cases outcome <;> simp [runIn_bind, hwork, -bind_pure_comp]

theorem runIn_withStaged (explain : OsError → Failure) (parent : PathText) (lead : String)
    (work : Location → Action α) (fs : FileSystem) :
    (withStaged explain parent lead work).runIn fs
      = match fs.makeTemporary parent lead (.file ByteArray.empty false) with
        | .error e => (.error (explain e), fs)
        | .ok (made, mid) =>
            match (work made.location).runIn mid with
            | (.ok a, after) => (.ok a, after)
            | (.error e, after) => (.error e, after.removeTree made.location) := by
  unfold withStaged
  rw [runIn_bind, runIn_get]
  dsimp only
  rw [runIn_bind]
  cases fs.makeTemporary parent lead (.file ByteArray.empty false) with
  | error e => simp
  | ok result =>
    obtain ⟨made, mid⟩ := result
    rcases hwork : (work made.location).runIn mid with ⟨outcome, after⟩
    cases outcome <;> simp [runIn_bind, hwork, -bind_pure_comp]

end SdkEvidence.Action
