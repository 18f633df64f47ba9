import SdkEvidence.Proofs.FileSystem.Entering
import SdkEvidence.Proofs.FileSystem.Growth

/-!
# Places for new files

Where something can be made, and what making it there leaves as it was.
-/

/-! ## Room for new names

Below a directory that can be entered, directories and files are made at names that are free
(`createDirectories_join_name`, `writeFile_join_name`), and a temporary directory that is made there
has room for any name (`room_of_makeTemporary`). Which name it gets depends on where the search for
names starts, and whether it is made does not (`makeTemporary_reseed`).
-/
namespace SdkEvidence.FileSystem

variable {fs after : FileSystem} {p : PathText} {name lead : String}

theorem get?_locate_of_isDirectory (h : fs.isDirectory p = true) :
    fs.get? (fs.locate p) = some .directory :=
  (resolve_found (find?_eq_some.mp (isDirectory_eq_true.mp h))).2

theorem resolve_free_join_name (hdir : fs.isDirectory p = true) (hname : Storable name)
    (habsent : fs.get? (fs.locate p ++ [name]) = none) :
    fs.resolve (Path.join p name) = .ok (.free (fs.locate p ++ [name]) false) := by
  rw [resolve_join_name (isDirectory_eq_true.mp hdir) hname, habsent]

theorem createDirectories_join_name (hdir : fs.isDirectory p = true) (hname : Storable name)
    (habsent : fs.get? (fs.locate p ++ [name]) = none) :
    fs.createDirectories (Path.join p name)
      = (fs.put (fs.locate p ++ [name]) .directory, .ok ()) := by
  have hne : Path.join p name ≠ "" := Path.join_ne_empty hname.isName.nonempty
  simp [createDirectories, createDirectoriesWithin, createDirectory, hne,
    resolve_free_join_name hdir hname habsent]

theorem writeFile_join_name (hdir : fs.isDirectory p = true) (hname : Storable name)
    (habsent : fs.get? (fs.locate p ++ [name]) = none) (content : ByteArray) :
    fs.writeFile (Path.join p name) content
      = .ok (fs.put (fs.locate p ++ [name]) (.file content false)) := by
  simp [writeFile, resolve_free_join_name hdir hname habsent]

/-- A node at a new name changes nothing elsewhere. -/
theorem within_put_name (hdir : fs.isDirectory p = true) (hname : IsName name)
    (habsent : fs.get? (fs.locate p ++ [name]) = none) (node : Node) :
    Within (fs.locate p ++ [name]) fs (fs.put (fs.locate p ++ [name]) node) :=
  Within.put fs (List.prefix_refl _) node (by simp [habsent]) fun wf =>
    wf.put (get?_locate_of_isDirectory hdir) hname (Or.inr (by simp [habsent]))

theorem mem_trail_join_name {loc : Location} (hname : IsName name)
    (h : loc ∈ fs.trail (Path.join p name)) : loc ∈ fs.trail p ∨ loc = fs.locate p ++ [name] := by
  rw [mem_trail_join fs (isAbsolute_of_isName hname), steps_of_isName hname] at h
  rcases h with h | h
  · exact Or.inl h
  · have hends : loc = fs.locate p ∨ loc = fs.locate p ++ [name] := by
      simpa [Location.trail, Location.step, hname.ne_parent] using h
    rcases hends with rfl | hend
    · exact Or.inl (locate_mem_trail fs p)
    · exact Or.inr hend

/-- A directory in which the given names are free. -/
structure Room (fs : FileSystem) (p : PathText) (names : List String) : Prop where
  isDirectory : fs.isDirectory p = true
  absent : ∀ name ∈ names, fs.get? (fs.locate p ++ [name]) = none

namespace Room

variable {names less : List String}

theorem mono (h : Room fs p names) (hless : ∀ other ∈ less, other ∈ names) : Room fs p less :=
  ⟨h.isDirectory, fun other hother => h.absent other (hless other hother)⟩

/-- Work at one name of a directory leaves room at the others. -/
theorem of_within (h : Room fs p names) (hwithin : Within (fs.locate p ++ [name]) fs after)
    (hless : ∀ other ∈ less, other ∈ names ∧ name ≠ other) : Room after p less := by
  refine ⟨isDirectory_of_stays hwithin.current hwithin.directories h.isDirectory,
    fun other hother => ?_⟩
  rw [locate_congr hwithin.current, hwithin.outside _ fun hbelow => ?_]
  · exact h.absent other (hless other hother).1
  · rw [List.prefix_append_right_inj] at hbelow
    exact (hless other hother).2 (by simpa using hbelow)

/-- A directory that was made at a new name has room for any name. -/
theorem of_put (wf : fs.WellFormed) (hdir : fs.isDirectory p = true) (hname : Storable name)
    (habsent : fs.get? (fs.locate p ++ [name]) = none) (names : List String) :
    Room (fs.put (fs.locate p ++ [name]) .directory) (Path.join p name) names := by
  have hlocate : (fs.put (fs.locate p ++ [name]) .directory).locate (Path.join p name)
      = fs.locate p ++ [name] := by
    rw [locate_congr (put_current _ _ _), locate_join_name fs p hname.isName]
  have hwithin := within_put_name hdir hname.isName habsent .directory
  have hdir' := isDirectory_of_stays hwithin.current hwithin.directories hdir
  refine ⟨?_, fun other _ => ?_⟩
  · rw [isDirectory_join_name (isDirectory_eq_true.mp hdir') hname,
      locate_congr (put_current _ _ _), get?_put_self fs (by simp)]
  · rw [hlocate, get?_put_of_ne fs (by simp)]
    exact wf.get?_below_absent habsent [other]

end Room

/-!
## Names of temporary directories
-/

theorem utf8ByteSize_ofList_le (chars : List Char) :
    (String.ofList chars).utf8ByteSize ≤ 4 * chars.length := by
  induction chars with
  | nil => simp
  | cons c rest ih =>
    have hone := c.utf8Size_le_four
    have hcons : (String.ofList (c :: rest)).utf8ByteSize
        = c.utf8Size + (String.ofList rest).utf8ByteSize := by simp
    rw [hcons, List.length_cons]
    omega

/-- The number of a temporary name is written with few digits. -/
theorem utf8ByteSize_candidate_le {n : Nat} (hn : n < UInt64.size) :
    (candidate n).utf8ByteSize ≤ 80 := by
  have hdigits : (Nat.toDigits 10 n).length ≤ 20 :=
    (Nat.length_toDigits_le_iff (by decide) (by decide)).mpr (Nat.lt_of_lt_of_le hn (by decide))
  refine Nat.le_trans (utf8ByteSize_ofList_le _) ?_
  rw [List.length_append, List.length_replicate]
  omega

/-- A lead of a temporary name that leaves room for the number. -/
structure ShortLead (lead : String) : Prop where
  no_slash : '/' ∉ lead.toList
  no_nul : '\x00' ∉ lead.toList
  short : lead.utf8ByteSize ≤ 100

theorem ShortLead.storable (h : ShortLead lead) {n : Nat} (hn : n < UInt64.size) :
    Storable (lead ++ candidate n) := by
  refine ⟨isName_append_candidate h.no_slash n, ?_, ?_⟩
  · rw [String.toList_append, List.mem_append, not_or]
    refine ⟨h.no_nul, fun hnul => ?_⟩
    have hdigit := mem_candidate hnul
    cases hdigit
  · have hcandidate := utf8ByteSize_candidate_le hn
    have hshort := h.short
    rw [String.utf8ByteSize_append, nameLimit]
    omega

/-- The candidates up to the number of nodes are tried. -/
theorem freshName_eq_within (fs : FileSystem) (dir : Location) (lead : String) :
    ∃ n ≤ fs.nodes.length, fs.freshName dir lead = lead ++ candidate (fs.seed + n) := by
  refine ⟨_, ?_, rfl⟩
  generalize hfind : (List.range (fs.nodes.length + 1)).find? _ = found
  cases found with
  | none => exact Nat.zero_le _
  | some n => exact Nat.lt_succ_iff.mp (List.mem_range.mp (List.mem_of_find?_eq_some hfind))

/-- The first candidate is taken where it is free. -/
theorem freshName_of_absent {dir : Location}
    (h : fs.get? (dir ++ [lead ++ candidate fs.seed]) = none) :
    fs.freshName dir lead = lead ++ candidate fs.seed := by
  unfold freshName
  dsimp only
  rw [List.range_succ_eq_map, List.find?_cons_of_pos (by simp [h])]
  rfl

/-- A temporary place is made in a directory with an absolute path. -/
theorem makeTemporary_inv {parent : PathText} {node : Node} {made : Temporary}
    (h : fs.makeTemporary parent lead node = .ok (made, after)) :
    ∃ above, Path.isAbsolute above = true ∧ fs.isDirectory above = true ∧
      made = { path := Path.join above (fs.freshName (fs.locate above) lead)
               location := fs.locate above ++ [fs.freshName (fs.locate above) lead] } ∧
      after = fs.put made.location node := by
  unfold makeTemporary at h
  dsimp only at h
  have habs : Path.isAbsolute
      (if Path.isAbsolute parent then parent else Path.join fs.currentPath parent) = true := by
    split
    next habs => exact habs
    next habs =>
      rw [Path.isAbsolute_join (by simpa using habs)]
      exact Path.isAbsolute_slash_append _
  generalize (if Path.isAbsolute parent then parent else Path.join fs.currentPath parent)
    = above at h habs
  split at h
  next => cases h
  next => cases h
  next => cases h
  next loc hresolve =>
    cases h
    obtain ⟨rfl, -⟩ := resolve_found hresolve
    exact ⟨above, habs, isDirectory_eq_true.mpr (find?_eq_some.mpr hresolve), rfl, rfl⟩

theorem makeTemporary_of_isDirectory (habs : Path.isAbsolute p = true)
    (hdir : fs.isDirectory p = true) (lead : String) (node : Node) :
    fs.makeTemporary p lead node
      = .ok ({ path := Path.join p (fs.freshName (fs.locate p) lead)
               location := fs.locate p ++ [fs.freshName (fs.locate p) lead] },
          fs.put (fs.locate p ++ [fs.freshName (fs.locate p) lead]) node) := by
  have hresolve := find?_eq_some.mp (isDirectory_eq_true.mp hdir)
  simp [makeTemporary, habs, hresolve]

/-- A temporary directory has an absolute path and room for any name, as long as the numbers of the
candidates are those of a machine. -/
theorem room_of_makeTemporary {parent : PathText} {made : Temporary} (wf : fs.WellFormed)
    (hlead : ShortLead lead) (hcount : fs.seed + fs.nodes.length < UInt64.size)
    (h : fs.makeTemporary parent lead .directory = .ok (made, after)) (names : List String) :
    Path.isAbsolute made.path = true ∧ Room after made.path names := by
  obtain ⟨above, habs, hdir, rfl, rfl⟩ := makeTemporary_inv h
  obtain ⟨n, hn, hfresh⟩ := freshName_eq_within fs (fs.locate above) lead
  have hname : Storable (fs.freshName (fs.locate above) lead) := by
    rw [hfresh]
    exact hlead.storable (by omega)
  refine ⟨?_, .of_put wf hdir hname (freshName_absent _ _ _) names⟩
  rw [Path.isAbsolute_join (isAbsolute_of_isName hname.isName)]
  exact habs

/-- The same files, where the search for temporary names starts elsewhere. -/
def reseed (fs : FileSystem) (seed : Nat) : FileSystem :=
  { fs with seed }

@[simp] theorem reseed_temporary (seed : Nat) : (fs.reseed seed).temporary = fs.temporary := rfl

theorem resolve_reseed (seed : Nat) (p : PathText) : (fs.reseed seed).resolve p = fs.resolve p :=
  resolve_congr rfl fun _ _ => rfl

theorem readFile_reseed (seed : Nat) (p : PathText) :
    (fs.reseed seed).readFile p = fs.readFile p := by
  simp only [readFile, resolve_reseed]

theorem WellFormed.reseed (wf : fs.WellFormed) (seed : Nat) : (fs.reseed seed).WellFormed :=
  ⟨wf.distinct, wf.named, wf.inDirectory⟩

/-- Whether a temporary place can be made does not depend on the name that it gets. -/
theorem makeTemporary_reseed (fs : FileSystem) (parent : PathText) (lead : String) (node : Node)
    (seed₁ seed₂ : Nat) :
    (∃ e, (fs.reseed seed₁).makeTemporary parent lead node = .error e ∧
      (fs.reseed seed₂).makeTemporary parent lead node = .error e) ∨
    ∃ made₁ after₁ made₂ after₂,
      (fs.reseed seed₁).makeTemporary parent lead node = .ok (made₁, after₁) ∧
      (fs.reseed seed₂).makeTemporary parent lead node = .ok (made₂, after₂) := by
  have hcurrent (seed : Nat) : (fs.reseed seed).currentPath = fs.currentPath := rfl
  unfold makeTemporary
  simp only [resolve_reseed, hcurrent]
  split
  next e _ => exact Or.inl ⟨e, rfl, rfl⟩
  next => exact Or.inl ⟨_, rfl, rfl⟩
  next => exact Or.inl ⟨_, rfl, rfl⟩
  next => exact Or.inr ⟨_, _, _, _, rfl, rfl⟩

end SdkEvidence.FileSystem

/-! ## Vacant places

A path can pass through directories to a place where nothing is (`Vacant`). Directories that are
created there are created nowhere else (`Vacant.within_of_grown`), and a new name in a directory is
such a place (`Entered.vacant`). Whether the names could be stored does not matter: what is not
created has changed nothing either.
-/
namespace SdkEvidence.FileSystem

variable {fs mid after : FileSystem} {p : PathText} {name : String} {top : Location}

/-- A path passes through directories only, and ends at one. -/
def Entered (fs : FileSystem) (p : PathText) : Prop :=
  ∀ loc ∈ fs.trail p, fs.get? loc = some .directory

/-- A path passes through directories to a place where nothing is. -/
structure Vacant (fs : FileSystem) (p : PathText) : Prop where
  absent : fs.get? (fs.locate p) = none
  way : ∀ loc ∈ fs.trail p, loc = fs.locate p ∨ fs.get? loc = some .directory

theorem entered_of_isDirectory (h : fs.isDirectory p = true) : Entered fs p :=
  (find?_directory_trail (isDirectory_eq_true.mp h)).2

theorem Made.entered {made : Temporary} (h : Made fs made .directory mid) :
    Entered mid made.path := by
  intro loc hloc
  rw [trail_congr h.current] at hloc
  rcases h.way loc hloc with rfl | hdir
  · exact h.get?_self
  · exact h.keeps hdir

namespace Entered

theorem of_within (h : Entered fs p) (hwithin : Within top fs after) : Entered after p := by
  intro loc hloc
  rw [trail_congr hwithin.current] at hloc
  exact hwithin.directories loc (h loc hloc)

theorem directory (h : Entered fs p) : fs.get? (fs.locate p) = some .directory :=
  h _ (locate_mem_trail fs p)

/-- A name that nothing has in a directory is a vacant place. -/
theorem vacant (h : Entered fs p) (hname : IsName name)
    (habsent : fs.get? (fs.locate p ++ [name]) = none) : Vacant fs (Path.join p name) := by
  have hlocate := locate_join_name fs p hname
  refine ⟨by rw [hlocate, habsent], fun loc hloc => ?_⟩
  rcases mem_trail_join_name hname hloc with hloc | rfl
  · exact Or.inr (h loc hloc)
  · exact Or.inl hlocate.symm

/-- No directory is missing on the way. -/
theorem eq_of_grownAt (h : Entered fs p) {loc : Location}
    (hgrown : GrownAt (fs.trail p) fs after loc) : after.get? loc = fs.get? loc := by
  rcases hgrown with hsame | ⟨hmem, hnone, -⟩
  · exact hsame
  · rw [h loc hmem] at hnone
    cases hnone

end Entered

namespace Vacant

/-- Only the place itself can be new among the directories that a path passes through. -/
theorem eq_of_grownAt (h : Vacant fs p) {loc : Location}
    (hgrown : GrownAt (fs.trail p) fs after loc) (hne : loc ≠ fs.locate p) :
    after.get? loc = fs.get? loc := by
  rcases hgrown with hsame | ⟨hmem, hnone, -⟩
  · exact hsame
  · rcases h.way loc hmem with heq | hdir
    · exact absurd heq hne
    · rw [hdir] at hnone
      cases hnone

theorem within_of_grown (h : Vacant fs p) (hgrown : Grown (fs.trail p) fs after) :
    Within (fs.locate p) fs after := by
  refine ⟨hgrown.current, fun loc hloc => ?_, fun _ => hgrown.keeps, hgrown.wellFormed⟩
  refine h.eq_of_grownAt (hgrown.node loc) ?_
  rintro rfl
  exact hloc (List.prefix_refl _)

end Vacant
end SdkEvidence.FileSystem
