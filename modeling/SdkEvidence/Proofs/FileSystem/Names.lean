import SdkEvidence.Proofs.FileSystem.Entering
import SdkEvidence.Proofs.FileSystem.Files

/-!
# Names of new nodes

Whatever creates a node gives it a name that can be stored, and a file one that does not end with a
backslash unless its path does (`createDirectories_storing`, `writeFile_storing`). The other way
round, along names that can be stored directories are created and files are written wherever no file
stands in the way (`createDirectories_of_names`, `writeFile_of_names`).
-/
namespace SdkEvidence

namespace Path

/-- A text ends with its last segment. -/
theorem exists_append_of_getLast?_segments {p last : String}
    (h : (segments p).getLast? = some last) : ∃ front, p = front ++ last := by
  obtain ⟨init, hinit⟩ := List.getLast?_eq_some_iff.mp h
  have hslash : ∀ s ∈ init ++ [last], '/' ∉ s.toList :=
    fun s hs => slash_not_mem_of_mem_segments (hinit ▸ hs)
  have hjoined : ['/'].intercalate (p.toList.splitOn '/') = p.toList := List.intercalate_splitOn '/'
  have hparts : p.toList.splitOn '/' = (init ++ [last]).map String.toList := by
    rw [← hinit]
    simp [segments, Function.comp_def]
  have hp : p = "/".intercalate (init ++ [last]) := by
    rw [← String.toList_inj, String.toList_intercalate, ← hjoined, hparts]
    rfl
  by_cases hnil : init = []
  · exact ⟨"", by simpa [hnil] using hp⟩
  · refine ⟨"/".intercalate init ++ "/", ?_⟩
    rw [hp, String.intercalate_append_of_ne_nil hnil (by simp), String.intercalate_singleton]

theorem getLast?_segments_of_body {p last : String} (h : (body p).getLast? = some last) :
    (segments p).getLast? = some last := by
  unfold body at h
  split at h
  next =>
    have hne : (segments p).drop 1 ≠ [] := by
      intro hnil
      rw [hnil] at h
      cases h
    obtain ⟨first, rest, hcons⟩ := List.exists_cons_of_ne_nil (segments_ne_nil p)
    rw [hcons] at h hne ⊢
    obtain ⟨second, more, rfl⟩ := List.exists_cons_of_ne_nil (l := rest) (by simpa using hne)
    rwa [List.getLast?_cons_cons]
  next => exact h

/-- A path whose last segment ends with a character ends with it. -/
theorem getLast?_of_body {p last : String} {c : Char} (h : (body p).getLast? = some last)
    (hc : last.toList.getLast? = some c) : p.toList.getLast? = some c := by
  obtain ⟨front, rfl⟩ := exists_append_of_getLast?_segments (getLast?_segments_of_body h)
  simp [List.getLast?_append, hc]

end Path

namespace FileSystem

variable {fs mid after : FileSystem}

/-- A free place ends with a name that can be stored; without a slash after it, it is the last
segment of the path. -/
theorem follow_free_name {segments : List String} {place loc : Location} {slash : Bool}
    (h : fs.follow place segments = .ok (.free loc slash)) :
    ∃ dir name, loc = dir ++ [name] ∧ name ∈ segments ∧ ¬nameLimit < name.utf8ByteSize ∧
      (slash = false → segments.getLast? = some name) := by
  rw [follow_eq_ok_iff] at h
  generalize htarget : Target.free loc slash = target at h
  -- what the rest of a path ends with, the whole path ends with
  have later {segment : String} {rest : List String}
      (h : ∃ dir name, loc = dir ++ [name] ∧ name ∈ rest ∧ ¬nameLimit < name.utf8ByteSize ∧
        (slash = false → rest.getLast? = some name)) :
      ∃ dir name, loc = dir ++ [name] ∧ name ∈ segment :: rest ∧
        ¬nameLimit < name.utf8ByteSize ∧
        (slash = false → (segment :: rest).getLast? = some name) := by
    obtain ⟨dir, name, hloc, hmem, hfits, hlast⟩ := h
    refine ⟨dir, name, hloc, List.mem_cons_of_mem _ hmem, hfits, fun hslash => ?_⟩
    obtain ⟨first, more, rfl⟩ := List.exists_cons_of_ne_nil (List.ne_nil_of_mem hmem)
    rw [List.getLast?_cons_cons]
    exact hlast hslash
  induction h with
  | here => cases htarget
  | filler _ _ _ ih => exact later (ih htarget)
  | step _ _ _ _ ih => exact later (ih htarget)
  | @free place segment rest _ _ _ hfits =>
    cases htarget
    refine ⟨place, segment, rfl, by simp, hfits, fun hslash => ?_⟩
    have hrest : rest = [] := by simpa using hslash
    simp [hrest]

theorem resolve_free_name {p : PathText} {loc : Location} {slash : Bool}
    (h : fs.resolve p = .ok (.free loc slash)) :
    ∃ dir name, loc = dir ++ [name] ∧ Storable name ∧
      (slash = false → (Path.body p).getLast? = some name) := by
  obtain ⟨dir, name, hloc, hmem, hfits, hlast⟩ := follow_free_name (resolve_eq_follow h)
  obtain ⟨-, -, dir', name', hloc', -, hname⟩ := resolve_free h
  have hsame : name' = name := by
    rw [hloc] at hloc'
    have hlasts := congrArg List.getLast? hloc'
    simpa using hlasts.symm
  have hnul : '\x00' ∉ p.toList := by
    intro hnul
    unfold resolve at h
    split at h
    next => cases h
    next => simp [hnul] at h
  exact ⟨dir, name, hloc,
    ⟨hsame ▸ hname, fun hmem' => hnul (Path.mem_of_mem_body hmem hmem'), hfits⟩,
    hlast⟩

/-- What is new has a name that can be stored, and new files have names that do not end with a
backslash. -/
structure Storing (fs after : FileSystem) : Prop where
  names : ∀ loc, (after.get? loc).isSome = true →
    (fs.get? loc).isSome = true ∨ ∃ dir name, loc = dir ++ [name] ∧ Storable name
  files : ∀ loc, (after.contentAt? loc).isSome = true →
    (fs.contentAt? loc).isSome = true ∨
      ∃ dir name, loc = dir ++ [name] ∧ name.toList.getLast? ≠ some '\\'

namespace Storing

theorem refl (fs : FileSystem) : Storing fs fs :=
  ⟨fun _ => Or.inl, fun _ => Or.inl⟩

theorem trans (h₁ : Storing fs mid) (h₂ : Storing mid after) : Storing fs after :=
  ⟨fun loc hsome => (h₂.names loc hsome).elim (h₁.names loc) Or.inr,
    fun loc hsome => (h₂.files loc hsome).elim (h₁.files loc) Or.inr⟩

theorem put {loc dir : Location} {name : String} {node : Node} (hloc : loc = dir ++ [name])
    (hname : Storable name) (hfile : node = .directory ∨ name.toList.getLast? ≠ some '\\') :
    Storing fs (fs.put loc node) := by
  constructor
  · intro l hsome
    by_cases hl : l = loc
    · exact Or.inr ⟨dir, name, hl.trans hloc, hname⟩
    · exact Or.inl (by rwa [get?_put_of_ne fs hl] at hsome)
  · intro l hsome
    by_cases hl : l = loc
    · rcases hfile with rfl | hfile
      · rw [hl, contentAt?_of_directory (get?_put_self fs (by simp [hloc]) _)] at hsome
        cases hsome
      · exact Or.inr ⟨dir, name, hl.trans hloc, hfile⟩
    · rw [contentAt?_congr (get?_put_of_ne fs hl _)] at hsome
      exact Or.inl hsome

/-- A file takes the place of a file. -/
theorem replace {loc : Location} {old content : ByteArray} {mode mode' : Bool}
    (hget : fs.get? loc = some (.file old mode)) :
    Storing fs (fs.put loc (.file content mode')) := by
  constructor
  · intro l hsome
    by_cases hl : l = loc
    · exact Or.inl (by rw [hl, hget]; rfl)
    · exact Or.inl (by rwa [get?_put_of_ne fs hl] at hsome)
  · intro l hsome
    by_cases hl : l = loc
    · exact Or.inl (by rw [hl, contentAt?_eq_some.mpr ⟨mode, hget⟩]; rfl)
    · exact Or.inl (by rwa [contentAt?_congr (get?_put_of_ne fs hl _)] at hsome)

end Storing

theorem createDirectory_storing {p : PathText} (h : fs.createDirectory p = .ok after) :
    Storing fs after := by
  unfold createDirectory at h
  split at h
  next => cases h
  next => cases h
  next loc slash hresolve =>
    cases h
    obtain ⟨dir, name, hloc, hname, -⟩ := resolve_free_name hresolve
    exact .put hloc hname (Or.inl rfl)

theorem ensureDirectory_storing (fs : FileSystem) (p : PathText) :
    Storing fs (fs.ensureDirectory p).1 := by
  unfold ensureDirectory
  split
  next made hmade => exact createDirectory_storing hmade
  next => exact .refl fs

theorem createDirectories_storing (fs : FileSystem) (p : PathText) :
    Storing fs (fs.createDirectories p).1 := by
  have hcreates : Creates fs p (fs.createDirectories p) := creates_createDirectories rfl
  generalize fs.createDirectories p = result at hcreates ⊢
  induction hcreates with
  | nowhere => exact .refl fs
  | stuck => exact .refl fs
  | here p => exact ensureDirectory_storing fs p
  | unraised _ _ ih => exact ih
  | raised _ _ ih => exact ih.trans (ensureDirectory_storing _ _)

/-- A file that is written has a new name only where the path leads to nothing yet. -/
theorem writeFile_storing {p : PathText} {content : ByteArray}
    (hp : p.toList.getLast? ≠ some '\\') (h : fs.writeFile p content = .ok after) :
    Storing fs after := by
  unfold writeFile at h
  split at h
  next => cases h
  next loc old executable hresolve =>
    cases h
    exact .replace (resolve_found hresolve).2
  next => cases h
  next loc slash hresolve =>
    split at h
    next => cases h
    next hslash =>
      cases h
      obtain ⟨dir, name, hloc, hname, hlast⟩ := resolve_free_name hresolve
      exact .put hloc hname
        (Or.inr fun hback => hp (Path.getLast?_of_body (hlast (by simpa using hslash)) hback))

/-- Names along which no file stands lead to a directory, to a free place, or are missing. -/
theorem follow_names {place : Location} {names : List String}
    (hdir : fs.get? place = some .directory) (hnames : ∀ name ∈ names, Storable name)
    (hfree : ∀ way, way <+: names → fs.contentAt? (place ++ way) = none) :
    fs.follow place names = .ok (.found (place ++ names) .directory) ∨
      fs.follow place names = .ok (.free (place ++ names) false) ∨
      fs.follow place names = .error .notFound := by
  induction names generalizing place with
  | nil => exact Or.inl (by simp [follow, hdir])
  | cons name rest ih =>
    have hname := hnames name List.mem_cons_self
    rw [follow, hdir]
    simp only [hname.isFiller, hname.isName.ne_parent, hname.fits, Bool.false_eq_true, if_false]
    cases hget : fs.get? (place ++ [name]) with
    | none =>
      rw [if_neg (by simp)]
      cases rest with
      | nil => exact Or.inr (Or.inl rfl)
      | cons next more =>
        have hnext := (hnames next (by simp)).isName.nonempty
        exact Or.inr (Or.inr (if_neg (by simp [hnext])))
    | some node =>
      -- what stands on the way is no file, so the names can be followed through it
      have hnode : node = .directory := by
        have hfile := hfree [name] (by simp)
        cases node with
        | directory => rfl
        | file content executable =>
          rw [contentAt?_eq_some.mpr ⟨executable, hget⟩] at hfile
          cases hfile
      subst hnode
      have hplace : place ++ name :: rest = place ++ [name] ++ rest := List.append_cons ..
      rw [if_pos (by simp), hplace]
      refine ih hget (fun n hn => hnames n (by simp [hn])) fun way hway => ?_
      rw [List.append_assoc]
      exact hfree ([name] ++ way) ((List.prefix_append_right_inj [name]).mpr hway)

/-- Names lead to the node below a directory, if there is one. -/
theorem follow_names_found_iff (wf : fs.WellFormed) {place loc : Location} {names : List String}
    {node : Node} (hdir : fs.get? place = some .directory)
    (hnames : ∀ name ∈ names, Storable name) :
    fs.follow place names = .ok (.found loc node)
      ↔ loc = place ++ names ∧ fs.get? (place ++ names) = some node := by
  induction names generalizing place with
  | nil => simp [follow, hdir, eq_comm]
  | cons name rest ih =>
    obtain ⟨hname, hrest⟩ := List.forall_mem_cons.mp hnames
    have hplace : place ++ name :: rest = place ++ [name] ++ rest := List.append_cons ..
    rw [follow, hdir, hplace]
    simp only [hname.isFiller, hname.isName.ne_parent, hname.fits, Bool.false_eq_true, if_false]
    cases hget : fs.get? (place ++ [name]) with
    | none =>
      rw [wf.get?_below_absent hget rest]
      cases rest with
      | nil => simp
      | cons next more => simp [(hnames next (by simp)).isName.nonempty]
    | some there =>
      rw [if_pos (by simp)]
      cases there with
      | directory => exact ih hget hrest
      | file content executable =>
        cases rest with
        | nil => simp [follow, hget, eq_comm]
        | cons next more =>
          refine iff_of_false (by simp [follow, hget]) ?_
          rintro ⟨-, hbelow⟩
          have hdir := wf.directory_of_below (List.cons_ne_nil next more)
            (Option.isSome_of_eq_some hbelow)
          rw [hget] at hdir
          cases hdir

/-- A path of names that is joined to a directory leads to the node below it, if there is one. -/
theorem find?_join_names (wf : fs.WellFormed) {p : PathText} {top loc : Location}
    {names : List String} {node : Node} (hfind : fs.find? p = some (top, .directory))
    (hsome : names ≠ []) (hnames : ∀ name ∈ names, Storable name)
    (hrel : Path.isAbsolute ("/".intercalate names) = false) :
    fs.find? (Path.join p ("/".intercalate names)) = some (loc, node)
      ↔ loc = top ++ names ∧ fs.get? (top ++ names) = some node := by
  have hnul : '\x00' ∉ ("/".intercalate names).toList := by
    intro hmem
    rcases Path.mem_intercalate_slash hmem with hslash | ⟨name, hname, hmem⟩
    · cases hslash
    · exact (hnames name hname).no_nul hmem
  have henters := Enters.of_join hfind hrel hnul
  rw [find?_eq_some, henters.resolve, Path.segments_intercalate hsome
    fun name hname => (hnames name hname).isName.no_slash,
    follow_names_found_iff wf henters.directory hnames]

theorem isDirectory_join_names (wf : fs.WellFormed) {p : PathText} {top : Location}
    {names : List String} (hfind : fs.find? p = some (top, .directory)) (hsome : names ≠ [])
    (hnames : ∀ name ∈ names, Storable name)
    (hrel : Path.isAbsolute ("/".intercalate names) = false) :
    fs.isDirectory (Path.join p ("/".intercalate names)) = true
      ↔ fs.get? (top ++ names) = some .directory := by
  constructor
  · intro hdir
    exact ((find?_join_names wf hfind hsome hnames hrel).mp (isDirectory_eq_true.mp hdir)).2
  · intro hget
    rw [isDirectory, (find?_join_names wf hfind hsome hnames hrel).mpr ⟨rfl, hget⟩]

/-- The way to a directory is followed to it, and on to the next name. -/
theorem createDirectory_of_names {p : PathText} {top loc : Location} {front : List String}
    {name : String} (henters : Enters fs p top (front ++ [name])) (hname : Storable name)
    (hfront : fs.follow top front = .ok (.found loc .directory)) :
    fs.createDirectory p ≠ .error .notFound := by
  unfold createDirectory
  rw [henters.resolve, follow_append hfront, follow_name (follow_found hfront).2 hname]
  cases fs.get? (loc ++ [name]) <;> simp

/-- Along names that can be stored directories are created, if no file stands in the way. -/
theorem createDirectoriesWithin_of_names {n : Nat} {p : PathText} {top : Location}
    {names : List String} (henters : Enters fs p top names)
    (hnames : ∀ name ∈ names, Storable name)
    (hfree : ∀ way, way <+: names → fs.contentAt? (top ++ way) = none) (hn : names.length < n) :
    (fs.createDirectoriesWithin n p).2 = .ok () := by
  induction n generalizing p names with
  | zero => cases hn
  | succ n ih =>
    have hmoves := Path.moves_of_names fun name hname => (hnames name hname).isFiller
    -- the last directory is created, or is there, unless the one above is missing
    have hlast {fs : FileSystem} (henters : Enters fs p top names)
        (hfree : ∀ way, way <+: names → fs.contentAt? (top ++ way) = none) :
        (∃ made, fs.createDirectory p = .ok made) ∨
          (∃ e, e ≠ .notFound ∧ fs.createDirectory p = .error e ∧ fs.isDirectory p = true) ∨
          fs.createDirectory p = .error .notFound := by
      unfold createDirectory isDirectory find?
      rw [henters.resolve]
      rcases follow_names henters.directory hnames hfree with h | h | h <;> simp [h]
    rcases hlast henters hfree with ⟨made, hmade⟩ | ⟨e, hne, he, hdir⟩ | hmissing
    · rw [createDirectoriesWithin_of_found n henters.nonempty (by simp [hmade])]
      simp [ensureDirectory, hmade]
    · rw [createDirectoriesWithin_of_found n henters.nonempty (by simp [he, hne])]
      simp [ensureDirectory, he, hdir]
    · obtain ⟨q, hparent, habove⟩ := henters.parent (henters.moves_ne_nil_of_notFound hmissing)
      rw [Path.above_of_names fun name hname => (hnames name hname).isFiller] at habove
      have hne : names ≠ [] := by
        rw [← hmoves]
        exact henters.moves_ne_nil_of_notFound hmissing
      have hsub := List.dropLast_prefix names
      have hrun := ih habove (fun name hname => hnames name (hsub.subset hname))
        (fun way hway => hfree way (hway.trans hsub)) (by
          have hpos := List.length_pos_iff.mpr hne
          rw [List.length_dropLast]
          omega)
      have hcreates := creates_createDirectoriesWithin n fs q
      rw [createDirectoriesWithin_of_missing n henters.nonempty hmissing hparent]
      rcases hmid : fs.createDirectoriesWithin n q with ⟨mid, outcome⟩
      rw [hmid] at hrun hcreates
      dsimp only at hrun ⊢
      subst hrun
      have hgrown := hcreates.grown
      have henters' := henters.of_stays hgrown.current fun _ => hgrown.keeps
      have hfollow := find?_eq_some.mp (hcreates.find? habove.nonempty)
      rw [(habove.of_stays hgrown.current fun _ => hgrown.keeps).resolve] at hfollow
      have hsplit := List.dropLast_append_getLast hne
      have hthere : mid.createDirectory p ≠ .error .notFound := by
        rw [← hsplit] at henters'
        exact createDirectory_of_names henters' (hnames _ (List.getLast_mem hne)) hfollow
      rcases hlast henters' fun way hway => (hgrown.contentAt? _).trans (hfree way hway)
        with ⟨made, hmade⟩ | ⟨e, -, he, hdir⟩ | hmissing
      · simp [ensureDirectory, hmade]
      · simp [ensureDirectory, he, hdir]
      · exact absurd hmissing hthere

theorem createDirectories_of_names {p : PathText} {top : Location} {names : List String}
    (henters : Enters fs p top names) (hnames : ∀ name ∈ names, Storable name)
    (hfree : ∀ way, way <+: names → fs.contentAt? (top ++ way) = none) :
    (fs.createDirectories p).2 = .ok () := by
  refine createDirectoriesWithin_of_names henters hnames hfree (Nat.lt_succ_of_le ?_)
  have hlength := henters.length_moves_le
  rwa [Path.moves_of_names fun name hname => (hnames name hname).isFiller] at hlength

/-- A file is written at a new name in a directory. -/
theorem writeFile_of_names {p : PathText} {top loc : Location} {front : List String}
    {name : String} (henters : Enters fs p top (front ++ [name])) (hname : Storable name)
    (hfront : fs.follow top front = .ok (.found loc .directory))
    (habsent : fs.get? (loc ++ [name]) = none) (content : ByteArray) :
    fs.writeFile p content = .ok (fs.put (loc ++ [name]) (.file content false)) := by
  unfold writeFile
  rw [henters.resolve, follow_append hfront, follow_name (follow_found hfront).2 hname, habsent]
  rfl

end FileSystem
end SdkEvidence
