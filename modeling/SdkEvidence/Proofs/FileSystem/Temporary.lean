import Mathlib.Data.List.Perm.Subperm
import Mathlib.Data.List.Nodup
import SdkEvidence.FileSystem.Temporary
import SdkEvidence.Proofs.FileSystem.Following

/-!
# Temporary places

The candidates for a temporary name are all different, so one of them is free (`freshName_absent`),
and a temporary file or directory is put where nothing was (`makeTemporary_ok`).
-/
namespace SdkEvidence.FileSystem

theorem candidate_injective {m n : Nat} (h : candidate m = candidate n) : m = n := by
  have hchars := congrArg (fun s => Nat.ofDigitChars 10 s.toList 0) h
  simpa [candidate, Nat.ofDigitChars_append] using hchars

theorem mem_candidate {n : Nat} {c : Char} (hc : c ∈ (candidate n).toList) : c.isDigit := by
  simp only [candidate, String.toList_ofList, List.mem_append, List.mem_replicate] at hc
  rcases hc with ⟨-, rfl⟩ | hc
  · rfl
  · exact Nat.isDigit_of_mem_toDigits (by decide) (by decide) hc

theorem length_candidate (n : Nat) : 6 ≤ (candidate n).length := by
  simp only [candidate, String.length_ofList, List.length_append, List.length_replicate]
  omega

/-- What starts as asked and ends with a candidate is a name. -/
theorem isName_append_candidate {lead : String} (hlead : '/' ∉ lead.toList) (n : Nat) :
    IsName (lead ++ candidate n) := by
  have hlength : 6 ≤ (lead ++ candidate n).length := by
    rw [String.length_append]
    exact Nat.le_trans (length_candidate n) (Nat.le_add_left _ _)
  have hlong {short : String} (h : short.length < 6) : lead ++ candidate n ≠ short := by
    rintro heq
    rw [heq] at hlength
    omega
  refine ⟨hlong (by decide), hlong (by decide), hlong (by decide), ?_⟩
  rw [String.toList_append, List.mem_append, not_or]
  refine ⟨hlead, fun hslash => ?_⟩
  have hdigit := mem_candidate hslash
  cases hdigit

theorem freshName_eq (fs : FileSystem) (dir : Location) (lead : String) :
    ∃ n, fs.freshName dir lead = lead ++ candidate n :=
  ⟨_, rfl⟩

/-- Among one more candidates than there are nodes, one is free. -/
theorem freshName_absent (fs : FileSystem) (dir : Location) (lead : String) :
    fs.get? (dir ++ [fs.freshName dir lead]) = none := by
  let place (n : Nat) : Location := dir ++ [lead ++ candidate (fs.seed + n)]
  have hinjective : Function.Injective place := by
    intro m n h
    have hname : lead ++ candidate (fs.seed + m) = lead ++ candidate (fs.seed + n) := by
      simpa [place] using h
    have hcandidate : candidate (fs.seed + m) = candidate (fs.seed + n) := by
      have hchars := congrArg String.toList hname
      rw [String.toList_append, String.toList_append] at hchars
      exact String.toList_inj.mp (List.append_cancel_left hchars)
    have hsum := candidate_injective hcandidate
    omega
  have hfree : ∃ n ∈ List.range (fs.nodes.length + 1), (fs.get? (place n)).isNone = true := by
    by_contra hnone
    have htaken : (List.range (fs.nodes.length + 1)).map place ⊆ fs.nodes.map Prod.fst := by
      intro loc hloc
      obtain ⟨n, hn, rfl⟩ := List.mem_map.mp hloc
      rw [mem_keys_iff]
      by_contra hlookup
      refine hnone ⟨n, hn, ?_⟩
      have hne : place n ≠ [] := by simp [place]
      rw [get?, if_neg hne]
      simpa only [Bool.not_eq_true, Option.isSome_eq_false_iff] using hlookup
    have hcount := (List.subperm_of_subset (List.nodup_range.map hinjective) htaken).length_le
    rw [List.length_map, List.length_map, List.length_range] at hcount
    omega
  unfold freshName
  dsimp only
  cases hfind : (List.range (fs.nodes.length + 1)).find? fun n => (fs.get? (place n)).isNone with
  | none =>
    obtain ⟨n, hn, hisNone⟩ := hfree
    exact absurd hisNone (List.find?_eq_none.mp hfind n hn)
  | some n =>
    have hisNone := List.find?_some hfind
    simpa [place] using hisNone

theorem segments_of_isName {name : String} (hname : IsName name) :
    Path.segments name = [name] := by
  simpa using Path.segments_intercalate (l := [name]) (by simp) (by simpa using hname.no_slash)

theorem isFiller_of_isName {name : String} (hname : IsName name) :
    Path.isFiller name = false := by
  simp [Path.isFiller, hname.nonempty, hname.ne_dot]

/-- A name is one step. -/
theorem steps_of_isName {name : String} (hname : IsName name) : Path.steps name = [name] := by
  simp [Path.steps, segments_of_isName hname, isFiller_of_isName hname]

theorem isAbsolute_of_isName {name : String} (hname : IsName name) :
    Path.isAbsolute name = false := by
  cases hchars : name.toList with
  | nil => simp [Path.isAbsolute, hchars]
  | cons c chars =>
    have hslash := hname.no_slash
    simp only [hchars, List.mem_cons, not_or] at hslash
    simpa [Path.isAbsolute, hchars] using Ne.symm hslash.1

/-- The path of a new name leads to the name. -/
theorem locate_join_name (fs : FileSystem) (p : PathText) {name : String} (hname : IsName name) :
    fs.locate (Path.join p name) = fs.locate p ++ [name] := by
  rw [locate_join fs (isAbsolute_of_isName hname), steps_of_isName hname]
  simp [Location.step, hname.ne_parent]

/-- What making a temporary place does: a node is put where nothing was, in a directory, and the
path of the new place leads there through directories. -/
structure Made (fs : FileSystem) (made : Temporary) (node : Node) (after : FileSystem) : Prop where
  inDirectory : ∃ dir name,
    made.location = dir ++ [name] ∧ IsName name ∧ fs.get? dir = some .directory
  absent : fs.get? made.location = none
  put : after = fs.put made.location node
  locate : fs.locate made.path = made.location
  way : ∀ loc ∈ fs.trail made.path, loc = made.location ∨ fs.get? loc = some .directory

theorem makeTemporary_ok {fs after : FileSystem} {parent : PathText} {lead : String} {node : Node}
    {made : Temporary} (hlead : '/' ∉ lead.toList)
    (h : fs.makeTemporary parent lead node = .ok (made, after)) : Made fs made node after := by
  unfold makeTemporary at h
  dsimp only at h
  generalize (if Path.isAbsolute parent then parent else Path.join fs.currentPath parent)
    = above at h
  split at h
  next => cases h
  next => cases h
  next => cases h
  next loc hresolve =>
    cases h
    obtain ⟨hloc, htrail⟩ := find?_directory_trail (find?_eq_some.mpr hresolve)
    subst hloc
    have hdir := htrail _ (locate_mem_trail fs above)
    obtain ⟨n, hfresh⟩ := freshName_eq fs (fs.locate above) lead
    have hname : IsName (fs.freshName (fs.locate above) lead) := by
      rw [hfresh]
      exact isName_append_candidate hlead n
    refine ⟨⟨_, _, rfl, hname, hdir⟩, freshName_absent _ _ _, rfl,
      locate_join_name fs above hname, fun loc hloc => ?_⟩
    rw [mem_trail_join fs (isAbsolute_of_isName hname), steps_of_isName hname] at hloc
    rcases hloc with hloc | hloc
    · exact Or.inr (htrail loc hloc)
    · simp only [Location.trail, Location.step, hname.ne_parent, if_false, List.mem_cons,
        List.not_mem_nil, or_false] at hloc
      rcases hloc with rfl | rfl
      · exact Or.inr hdir
      · exact Or.inl rfl

/-- The name of a temporary place starts as asked. -/
theorem exists_lead_of_makeTemporary {fs after : FileSystem} {parent : PathText} {lead : String}
    {node : Node} {made : Temporary} (h : fs.makeTemporary parent lead node = .ok (made, after)) :
    ∃ name ∈ made.location, lead.toList <+: name.toList := by
  unfold makeTemporary at h
  dsimp only at h
  split at h
  next => cases h
  next => cases h
  next => cases h
  next loc hresolve =>
    cases h
    obtain ⟨n, hfresh⟩ := freshName_eq fs loc lead
    refine ⟨_, List.mem_append_right _ (List.mem_singleton_self _), ?_⟩
    rw [hfresh, String.toList_append]
    exact List.prefix_append _ _

namespace Made

variable {fs after : FileSystem} {made : Temporary} {node : Node}

theorem location_ne_nil (h : Made fs made node after) : made.location ≠ [] := by
  obtain ⟨dir, name, hsplit, -⟩ := h.inDirectory
  simp [hsplit]

theorem current (h : Made fs made node after) : after.current = fs.current := by
  rw [h.put, put_current]

theorem get?_self (h : Made fs made node after) : after.get? made.location = some node := by
  rw [h.put, get?_put_self fs h.location_ne_nil]

theorem get?_of_ne (h : Made fs made node after) {loc : Location} (hloc : loc ≠ made.location) :
    after.get? loc = fs.get? loc := by
  rw [h.put, get?_put_of_ne fs hloc]

theorem keeps (h : Made fs made node after) {loc : Location} {there : Node}
    (hget : fs.get? loc = some there) : after.get? loc = some there := by
  rw [h.put]
  exact get?_put_of_absent h.absent hget node

theorem wellFormed (h : Made fs made node after) (wf : fs.WellFormed) : after.WellFormed := by
  obtain ⟨dir, name, hsplit, hname, hdir⟩ := h.inDirectory
  have habsent := h.absent
  rw [h.put, hsplit]
  rw [hsplit] at habsent
  exact wf.put hdir hname (Or.inr (by simp [habsent]))

/-- Making a place changes nothing elsewhere. -/
theorem within (h : Made fs made node after) : Within made.location fs after :=
  ⟨h.current, fun _ hloc => h.get?_of_ne fun heq => hloc (heq ▸ List.prefix_refl _),
    fun _ => h.keeps, h.wellFormed⟩

/-- Nothing stands below a place that is new. -/
theorem fresh (h : Made fs made node after) (wf : fs.WellFormed) (name : String) (way : Location) :
    after.get? (made.location ++ name :: way) = none := by
  rw [h.get?_of_ne (by simp)]
  exact wf.get?_below_absent h.absent _

/-- When the place and all below it are removed, everything is where it was. -/
theorem get?_removed (h : Made fs made node after) (wf : fs.WellFormed) {last : FileSystem}
    (hlast : ∀ loc, ¬made.location <+: loc → last.get? loc = after.get? loc) (loc : Location) :
    (last.removeTree made.location).get? loc = fs.get? loc := by
  by_cases hnil : loc = []
  · simp [hnil]
  rw [get?_removeTree last _ _ hnil]
  split
  next hbelow =>
    obtain ⟨way, rfl⟩ := hbelow
    exact (wf.get?_below_absent h.absent way).symm
  next hout =>
    have hne : loc ≠ made.location := by
      rintro rfl
      exact hout (List.prefix_refl _)
    rw [hlast loc hout, h.get?_of_ne hne]

end Made

end SdkEvidence.FileSystem
