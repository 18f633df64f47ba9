import Mathlib.Data.List.Induction
import SdkEvidence.FileSystem.Basic
import SdkEvidence.Proofs.Repetition

/-!
# What stands where

Reading a location after a node was put or a tree removed (`get?_put`, `get?_removeTree`), and the
invariant of a file system: locations are listed once, their names are names, and every node
stands in a directory (`WellFormed`). All changes that the library makes keep it.
-/
namespace SdkEvidence

namespace Location

theorem below?_isNone {top loc : Location} : (below? top loc).isNone = true ↔ ¬ top <+: loc := by
  constructor
  · rintro h ⟨rest, rfl⟩
    rw [below?_eq_some.mpr rfl] at h
    cases h
  · intro h
    cases hb : below? top loc with
    | none => rfl
    | some rest => exact absurd ⟨rest, (below?_eq_some.mp hb).symm⟩ h

end Location

namespace FileSystem

@[simp] theorem get?_nil (fs : FileSystem) : fs.get? [] = some .directory := by
  simp [get?]

@[simp] theorem put_current (fs : FileSystem) (loc : Location) (node : Node) :
    (fs.put loc node).current = fs.current := by
  unfold put
  split <;> rfl

@[simp] theorem put_seed (fs : FileSystem) (loc : Location) (node : Node) :
    (fs.put loc node).seed = fs.seed := by
  unfold put
  split <;> rfl

@[simp] theorem removeTree_current (fs : FileSystem) (top : Location) :
    (fs.removeTree top).current = fs.current := rfl

theorem lookup_cons_of_ne {α : Type} {nodes : List (Location × α)} {l key : Location} {node : α}
    (h : l ≠ key) : ((key, node) :: nodes).lookup l = nodes.lookup l := by
  have hb : (l == key) = false := by simpa using h
  simp only [List.lookup_cons, hb]

theorem lookup_map_replace (nodes : List (Location × Node)) (loc l : Location) (node : Node) :
    (nodes.map fun entry => if entry.1 = loc then (loc, node) else entry).lookup l
      = if l = loc then (nodes.lookup l).map fun _ => node else nodes.lookup l := by
  induction nodes with
  | nil => simp
  | cons entry rest ih =>
    obtain ⟨key, old⟩ := entry
    by_cases hl : l = key
    · subst hl
      by_cases hloc : l = loc <;> simp [hloc]
    · by_cases hkey : key = loc
      · subst hkey
        simp [lookup_cons_of_ne hl, hl, ih]
      · simp [lookup_cons_of_ne hl, hkey, ih]

theorem get?_put (fs : FileSystem) (loc l : Location) (node : Node) :
    (fs.put loc node).get? l
      = if l = [] then some .directory else if l = loc then some node else fs.get? l := by
  unfold get? put
  by_cases hl : l = []
  · simp [hl]
  · simp only [hl, if_false]
    split
    next hsome =>
      rw [lookup_map_replace]
      by_cases hloc : l = loc
      · subst hloc
        simp [Option.map_eq_some_iff, Option.isSome_iff_exists.mp hsome]
      · simp [hloc]
    next hnone =>
      by_cases hloc : l = loc
      · subst hloc
        have habsent : fs.nodes.lookup l = none := by
          rwa [Bool.not_eq_true, Option.isSome_eq_false_iff, Option.isNone_iff_eq_none] at hnone
        simp [List.lookup_append, habsent]
      · simp [List.lookup_append, lookup_cons_of_ne hloc, hloc]

theorem get?_put_self (fs : FileSystem) {loc : Location} (hloc : loc ≠ []) (node : Node) :
    (fs.put loc node).get? loc = some node := by
  simp [get?_put, hloc]

theorem get?_put_of_ne (fs : FileSystem) {loc l : Location} (hl : l ≠ loc) (node : Node) :
    (fs.put loc node).get? l = fs.get? l := by
  by_cases hnil : l = []
  · simp [hnil]
  · simp [get?_put, hl, hnil]

/-- What is there stays when something new is put beside it. -/
theorem get?_put_of_absent {fs : FileSystem} {loc l : Location} {there : Node}
    (habsent : fs.get? loc = none) (hget : fs.get? l = some there) (node : Node) :
    (fs.put loc node).get? l = some there := by
  rw [get?_put_of_ne, hget]
  rintro rfl
  rw [habsent] at hget
  cases hget

theorem get?_removeTree (fs : FileSystem) (top l : Location) (hl : l ≠ []) :
    (fs.removeTree top).get? l = if top <+: l then none else fs.get? l := by
  simp only [get?, hl, if_false, removeTree]
  induction fs.nodes with
  | nil => simp
  | cons entry rest ih =>
    obtain ⟨key, node⟩ := entry
    by_cases htop : top <+: key
    · have hout : (Location.below? top key).isNone = false := by
        rw [Bool.eq_false_iff, ne_eq, Location.below?_isNone, not_not]
        exact htop
      by_cases hkey : l = key
      · subst hkey
        simpa [List.filter_cons, hout, htop] using ih
      · simpa [List.filter_cons, hout, lookup_cons_of_ne hkey] using ih
    · have hin : (Location.below? top key).isNone = true := Location.below?_isNone.mpr htop
      by_cases hkey : l = key
      · subst hkey
        simp [hin, htop]
      · simpa [List.filter_cons, hin, lookup_cons_of_ne hkey] using ih

/-- The content of the file at a location. -/
def contentAt? (fs : FileSystem) (loc : Location) : Option ByteArray :=
  match fs.get? loc with
  | some (.file content _) => some content
  | _ => none

theorem contentAt?_eq_some {fs : FileSystem} {loc : Location} {content : ByteArray} :
    fs.contentAt? loc = some content
      ↔ ∃ executable, fs.get? loc = some (.file content executable) := by
  unfold contentAt?
  split
  next old executable h => simp [h]
  next h => simpa using fun executable => h content executable

theorem contentAt?_congr {fs after : FileSystem} {loc : Location}
    (h : after.get? loc = fs.get? loc) : after.contentAt? loc = fs.contentAt? loc := by
  simp [contentAt?, h]

theorem contentAt?_of_directory {fs : FileSystem} {loc : Location}
    (h : fs.get? loc = some .directory) : fs.contentAt? loc = none := by
  simp [contentAt?, h]

theorem contentAt?_of_absent {fs : FileSystem} {loc : Location}
    (h : fs.get? loc = none) : fs.contentAt? loc = none := by
  simp [contentAt?, h]

/-- A file that is put is the only content that changes. -/
theorem contentAt?_put_file (fs : FileSystem) {loc : Location} (hloc : loc ≠ []) (l : Location)
    (content : ByteArray) (executable : Bool) :
    (fs.put loc (.file content executable)).contentAt? l
      = if l = loc then some content else fs.contentAt? l := by
  by_cases hl : l = loc
  · subst hl
    simp [contentAt?, get?_put_self fs hloc]
  · simp [contentAt?, get?_put_of_ne fs hl, hl]

/-- A text that can be the name of a file: it is no empty segment, no dots, and holds no slash. -/
structure IsName (name : String) : Prop where
  nonempty : name ≠ ""
  ne_dot : name ≠ "."
  ne_parent : name ≠ ".."
  no_slash : '/' ∉ name.toList

/-- The invariant of a file system: no location is listed twice, locations are made of names, and
every node stands in a directory. -/
structure WellFormed (fs : FileSystem) : Prop where
  distinct : (fs.nodes.map Prod.fst).Nodup
  named : ∀ entry ∈ fs.nodes, entry.1 ≠ [] ∧ ∀ name ∈ entry.1, IsName name
  inDirectory : ∀ (dir : Location) (name : String),
    (fs.get? (dir ++ [name])).isSome → fs.get? dir = some .directory

instance (name : String) : Decidable (IsName name) :=
  decidable_of_iff (name ≠ "" ∧ name ≠ "." ∧ name ≠ ".." ∧ '/' ∉ name.toList)
    ⟨fun ⟨hne, hdot, hup, hslash⟩ => ⟨hne, hdot, hup, hslash⟩,
      fun h => ⟨h.nonempty, h.ne_dot, h.ne_parent, h.no_slash⟩⟩

/-- The invariant is told by the listed nodes. -/
theorem wellFormed_iff {fs : FileSystem} :
    fs.WellFormed ↔ (fs.nodes.map Prod.fst).Nodup ∧
      (∀ entry ∈ fs.nodes, entry.1 ≠ [] ∧ ∀ name ∈ entry.1, IsName name) ∧
      ∀ entry ∈ fs.nodes, fs.get? entry.1.dropLast = some .directory := by
  constructor
  · rintro ⟨hdistinct, hnamed, hin⟩
    refine ⟨hdistinct, hnamed, ?_⟩
    rintro ⟨loc, node⟩ hentry
    rcases List.eq_nil_or_concat loc with rfl | ⟨dir, name, rfl⟩
    · exact absurd rfl (hnamed _ hentry).1
    · rw [List.concat_eq_append] at hentry ⊢
      rw [List.dropLast_concat]
      refine hin dir name ?_
      have hkey : (fs.nodes.lookup (dir ++ [name])).isSome = true :=
        List.lookup_isSome_iff.mpr ⟨_, hentry, by simp⟩
      simpa [get?] using hkey
  · rintro ⟨hdistinct, hnamed, habove⟩
    refine ⟨hdistinct, hnamed, fun dir name hsome => ?_⟩
    have hkey : (fs.nodes.lookup (dir ++ [name])).isSome = true := by simpa [get?] using hsome
    obtain ⟨⟨loc, node⟩, hentry, heq⟩ := List.lookup_isSome_iff.mp hkey
    have hloc : dir ++ [name] = loc := by simpa using heq
    have hdir := habove _ hentry
    rwa [← hloc, List.dropLast_concat] at hdir

instance (fs : FileSystem) : Decidable fs.WellFormed :=
  decidable_of_iff _ wellFormed_iff.symm

theorem mem_keys_iff (fs : FileSystem) (loc : Location) :
    loc ∈ fs.nodes.map Prod.fst ↔ (fs.nodes.lookup loc).isSome := by
  rw [List.lookup_isSome_iff]
  simp only [List.mem_map, beq_iff_eq]
  constructor
  · rintro ⟨entry, hentry, rfl⟩
    exact ⟨entry, hentry, rfl⟩
  · rintro ⟨entry, hentry, rfl⟩
    exact ⟨entry, hentry, rfl⟩

namespace WellFormed

/-- Nodes are listed where they are found. -/
theorem mem_nodes_iff {fs : FileSystem} (wf : fs.WellFormed) {loc : Location} {node : Node} :
    (loc, node) ∈ fs.nodes ↔ loc ≠ [] ∧ fs.get? loc = some node := by
  rw [← lookup_eq_some_iff_mem wf.distinct]
  constructor
  · intro hlookup
    have hloc : loc ≠ [] := (wf.named _ ((lookup_eq_some_iff_mem wf.distinct).mp hlookup)).1
    exact ⟨hloc, by rwa [get?, if_neg hloc]⟩
  · rintro ⟨hloc, hget⟩
    rwa [get?, if_neg hloc] at hget

theorem isName_of_get? {fs : FileSystem} (wf : fs.WellFormed) {loc : Location} {node : Node}
    (hget : fs.get? loc = some node) : ∀ name ∈ loc, IsName name := by
  by_cases hloc : loc = []
  · simp [hloc]
  · exact (wf.named _ (wf.mem_nodes_iff.mpr ⟨hloc, hget⟩)).2

theorem directory_above {fs : FileSystem} (wf : fs.WellFormed) {loc : Location}
    (hdir : fs.get? loc = some .directory) : fs.get? loc.dropLast = some .directory := by
  rcases List.eq_nil_or_concat loc with rfl | ⟨above, name, rfl⟩
  · exact hdir
  · rw [List.concat_eq_append] at hdir ⊢
    rw [List.dropLast_concat]
    exact wf.inDirectory above name (by simp [hdir])

/-- What stands below a location stands below a directory. -/
theorem directory_of_below {fs : FileSystem} (wf : fs.WellFormed) {loc way : Location}
    (hway : way ≠ []) (hsome : (fs.get? (loc ++ way)).isSome) :
    fs.get? loc = some .directory := by
  induction way using List.reverseRecOn with
  | nil => exact absurd rfl hway
  | append_singleton front name ih =>
    rw [← List.append_assoc] at hsome
    have habove := wf.inDirectory _ _ hsome
    by_cases hfront : front = []
    · simpa [hfront] using habove
    · exact ih hfront (by simp [habove])

theorem get?_below_absent {fs : FileSystem} (wf : fs.WellFormed) {loc : Location}
    (habsent : fs.get? loc = none) (way : Location) : fs.get? (loc ++ way) = none := by
  by_cases hway : way = []
  · simpa [hway] using habsent
  · cases hget : fs.get? (loc ++ way) with
    | none => rfl
    | some node =>
      have hsome : (fs.get? (loc ++ way)).isSome := by rw [hget]; rfl
      have hdir := wf.directory_of_below hway hsome
      rw [habsent] at hdir
      cases hdir

theorem distinct_put {fs : FileSystem} (wf : fs.WellFormed) (loc : Location) (node : Node) :
    ((fs.put loc node).nodes.map Prod.fst).Nodup := by
  unfold FileSystem.put
  split
  next hsome =>
    have hkeys : (fs.nodes.map fun entry => if entry.1 = loc then (loc, node) else entry).map
        Prod.fst = fs.nodes.map Prod.fst := by
      rw [List.map_map]
      apply List.map_congr_left
      intro entry _
      by_cases h : entry.1 = loc <;> simp [h]
    simpa only [hkeys] using wf.distinct
  next hnone =>
    have habsent : loc ∉ fs.nodes.map Prod.fst := by
      rw [mem_keys_iff]
      exact hnone
    simp only [List.map_append, List.map_cons, List.map_nil]
    exact List.nodup_append.mpr ⟨wf.distinct, by simp, by
      rintro a ha b hb rfl
      exact habsent ((List.mem_singleton.mp hb) ▸ ha)⟩

theorem named_put {fs : FileSystem} (wf : fs.WellFormed) {loc : Location} (hloc : loc ≠ [])
    (hnames : ∀ n ∈ loc, IsName n) (node : Node) :
    ∀ entry ∈ (fs.put loc node).nodes, entry.1 ≠ [] ∧ ∀ n ∈ entry.1, IsName n := by
  intro entry hentry
  unfold FileSystem.put at hentry
  split at hentry
  next =>
    obtain ⟨old, hold, rfl⟩ := List.mem_map.mp hentry
    by_cases h : old.1 = loc
    · simp only [h, if_true]
      exact ⟨hloc, hnames⟩
    · simpa only [h, if_false] using wf.named old hold
  next =>
    rcases List.mem_append.mp hentry with hentry | hentry
    · exact wf.named entry hentry
    · rw [List.mem_singleton.mp hentry]
      exact ⟨hloc, hnames⟩

/-- Putting a node into a directory keeps the invariant, unless it is a file in the place of a
directory. -/
theorem put {fs : FileSystem} (wf : fs.WellFormed) {dir : Location} {name : String} {node : Node}
    (hdir : fs.get? dir = some .directory) (hname : IsName name)
    (hnode : node = .directory ∨ fs.get? (dir ++ [name]) ≠ some .directory) :
    (fs.put (dir ++ [name]) node).WellFormed := by
  have hloc : dir ++ [name] ≠ [] := by simp
  have hnames : ∀ n ∈ dir ++ [name], IsName n := by
    intro n hn
    rcases List.mem_append.mp hn with hn | hn
    · exact wf.isName_of_get? hdir n hn
    · simpa [List.mem_singleton.mp hn] using hname
  refine ⟨wf.distinct_put _ _, wf.named_put hloc hnames _, ?_⟩
  intro above below hsome
  by_cases hbelow : above ++ [below] = dir ++ [name]
  · obtain ⟨rfl, -⟩ := List.append_inj' hbelow rfl
    rw [get?_put_of_ne _ (by simp)]
    exact hdir
  · rw [get?_put_of_ne _ hbelow] at hsome
    have habove := wf.inDirectory _ _ hsome
    by_cases hsame : above = dir ++ [name]
    · subst hsame
      rcases hnode with rfl | hnot
      · exact get?_put_self _ hloc _
      · exact absurd habove hnot
    · rw [get?_put_of_ne _ hsame]
      exact habove

/-- A file stands in a directory. -/
theorem exists_directory {fs : FileSystem} (wf : fs.WellFormed) {loc : Location}
    {content : ByteArray} {executable : Bool}
    (hget : fs.get? loc = some (.file content executable)) :
    ∃ dir name, loc = dir ++ [name] ∧ IsName name ∧ fs.get? dir = some .directory := by
  rcases List.eq_nil_or_concat loc with rfl | ⟨dir, name, rfl⟩
  · simp at hget
  · rw [List.concat_eq_append] at hget ⊢
    exact ⟨dir, name, rfl, wf.isName_of_get? hget name (by simp),
      wf.inDirectory dir name (by simp [hget])⟩

/-- A file may be replaced by anything. -/
theorem replace {fs : FileSystem} (wf : fs.WellFormed) {loc : Location} {content : ByteArray}
    {executable : Bool} (hget : fs.get? loc = some (.file content executable)) (node : Node) :
    (fs.put loc node).WellFormed := by
  obtain ⟨dir, name, rfl, hname, hdir⟩ := wf.exists_directory hget
  exact wf.put hdir hname (Or.inr (by simp [hget]))

theorem removeTree {fs : FileSystem} (wf : fs.WellFormed) (top : Location) :
    (fs.removeTree top).WellFormed := by
  refine ⟨wf.distinct.sublist (List.filter_sublist.map _),
    fun entry hentry => wf.named entry ((List.mem_filter.mp hentry).1), ?_⟩
  intro dir name hsome
  rw [get?_removeTree _ _ _ (by simp)] at hsome
  split at hsome
  · cases hsome
  next htop =>
    have hdir := wf.inDirectory _ _ hsome
    by_cases hnil : dir = []
    · simp [hnil]
    · rw [get?_removeTree _ _ _ hnil, if_neg (fun h => htop (h.trans (List.prefix_append _ _)))]
      exact hdir

end WellFormed

/-- What work inside of a directory does: it changes nothing outside, leaves directories where they
are, and keeps the invariant. -/
structure Within (top : Location) (fs after : FileSystem) : Prop where
  current : after.current = fs.current
  outside : ∀ loc, ¬top <+: loc → after.get? loc = fs.get? loc
  directories : ∀ loc, fs.get? loc = some .directory → after.get? loc = some .directory
  wellFormed : fs.WellFormed → after.WellFormed

namespace Within

variable {top : Location} {fs mid after : FileSystem}

theorem refl (top : Location) (fs : FileSystem) : Within top fs fs :=
  ⟨rfl, fun _ _ => rfl, fun _ h => h, id⟩

theorem trans (h₁ : Within top fs mid) (h₂ : Within top mid after) : Within top fs after :=
  ⟨h₂.current.trans h₁.current,
    fun loc hloc => (h₂.outside loc hloc).trans (h₁.outside loc hloc),
    fun loc hget => h₂.directories loc (h₁.directories loc hget),
    fun wf => h₂.wellFormed (h₁.wellFormed wf)⟩

/-- Work inside of a directory is work inside of all directories above it. -/
theorem mono {above : Location} (h : Within top fs after) (habove : above <+: top) :
    Within above fs after :=
  ⟨h.current, fun loc hloc => h.outside loc fun htop => hloc (habove.trans htop),
    h.directories, h.wellFormed⟩

theorem put (fs : FileSystem) {loc : Location} (hloc : top <+: loc) (node : Node)
    (hnot : fs.get? loc ≠ some .directory) (hwf : fs.WellFormed → (fs.put loc node).WellFormed) :
    Within top fs (fs.put loc node) := by
  refine ⟨put_current _ _ _, fun l hl => get?_put_of_ne fs ?_ node, fun l hl => ?_, hwf⟩
  · rintro rfl
    exact hl hloc
  · have hne : l ≠ loc := by
      rintro rfl
      exact hnot hl
    rw [get?_put_of_ne fs hne, hl]

theorem contentAt? (h : Within top fs after) {loc : Location} (hloc : ¬top <+: loc) :
    after.contentAt? loc = fs.contentAt? loc :=
  contentAt?_congr (h.outside loc hloc)

end Within
end FileSystem
end SdkEvidence
