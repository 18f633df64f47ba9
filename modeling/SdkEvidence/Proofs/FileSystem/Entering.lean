import SdkEvidence.Proofs.FileSystem.Growth
import SdkEvidence.Proofs.FileSystem.Temporary

/-!
# Paths through a directory

A path that passes through a directory is followed from there on by the segments that are left
(`Enters.resolve`). A path that is joined to a directory passes through it (`Enters.of_join`), and
so does its parent, as long as steps are left (`Enters.parent`). A path that leads to a file ends
with the name of the file (`fileName?_of_file`).
-/
namespace SdkEvidence

namespace Path

/-- The segments before the last step, without those that name nothing at their end. -/
def above (segments : List String) : List String :=
  (dropFiller false (dropFiller false segments.reverse).tail).reverse

theorem moves_append (front back : List String) :
    moves (front ++ back) = moves front ++ moves back := by
  simp [moves]

theorem moves_dropFiller (relative : Bool) (l : List String) :
    moves (dropFiller relative l) = moves l :=
  filter_dropFiller relative l

theorem moves_reverse (segments : List String) :
    moves segments.reverse = (moves segments).reverse := by
  simp [moves, List.filter_reverse]

/-- Where something follows, the dot of a relative path is dropped like any other. -/
theorem dropFiller_append_of_moves {relative : Bool} {l r : List String} (hl : moves l ≠ [])
    (hr : r ≠ [] ∨ relative = false) : dropFiller relative (l ++ r) = dropFiller false l ++ r := by
  induction l with
  | nil => exact absurd rfl hl
  | cons segment rest ih =>
    have hdot : (relative && (rest ++ r).isEmpty && segment == ".") = false := by
      rcases hr with hr | hr <;> simp [hr]
    simp only [List.cons_append, dropFiller, hdot, Bool.false_and, Bool.false_eq_true, if_false]
    split
    next hfiller => exact ih (by rwa [moves_cons_filler hfiller] at hl)
    next => rfl

theorem dropFiller_append_of_fillers {relative : Bool} {l r : List String} (hl : moves l = [])
    (hr : r ≠ [] ∨ relative = false) : dropFiller relative (l ++ r) = dropFiller relative r := by
  induction l with
  | nil => rfl
  | cons segment rest ih =>
    have hdot : (relative && (rest ++ r).isEmpty && segment == ".") = false := by
      rcases hr with hr | hr <;> simp [hr]
    cases hfiller : isFiller segment with
    | true =>
      rw [moves_cons_filler hfiller] at hl
      simp only [List.cons_append, dropFiller, hdot, hfiller, Bool.false_eq_true, if_false, if_true]
      exact ih hl
    | false =>
      rw [moves_cons hfiller] at hl
      cases hl

theorem dropFiller_of_fillers {l : List String} (hl : moves l = []) : dropFiller false l = [] := by
  simpa [dropFiller] using dropFiller_append_of_fillers (r := []) hl (Or.inr rfl)

/-- Nothing is left of a relative path only if it starts with an empty segment. -/
theorem dropFiller_ne_nil {l : List String} {first : String} (hfirst : first ≠ "") :
    dropFiller true (l ++ [first]) ≠ [] := by
  induction l with
  | nil =>
    by_cases hdot : first = "."
    · simp [dropFiller, hdot]
    · simp [dropFiller, hdot, hfirst, isFiller]
  | cons segment rest ih =>
    simp only [List.cons_append, dropFiller]
    split
    next => simp
    next =>
      split
      · exact ih
      · simp

theorem moves_above (segments : List String) :
    moves (above segments) = (moves segments).dropLast := by
  have hdrop := moves_dropFiller false segments.reverse
  rw [moves_reverse] at hdrop
  have htail : moves (dropFiller false segments.reverse).tail = (moves segments).reverse.tail := by
    rw [← hdrop]
    cases hkept : dropFiller false segments.reverse with
    | nil => rfl
    | cons last rest =>
      rcases dropFiller_head hkept with hlast | ⟨hlast, rfl⟩
      · rw [moves_cons hlast]
        rfl
      · rw [moves_cons_filler hlast]
        rfl
  rw [above, moves_reverse, moves_dropFiller, htail]
  simp

theorem above_initial (segments : List String) : above segments <+: segments := by
  have hdrop : (dropFiller false (dropFiller false segments.reverse).tail) <:+ segments.reverse :=
    ((dropFiller_suffix _ _).trans (List.tail_suffix _)).trans (dropFiller_suffix _ _)
  simpa [above] using List.reverse_prefix.mpr hdrop

theorem countP_splitOn_le (chars : List Char) :
    (chars.splitOn '/').countP (fun part => !part.isEmpty) ≤ chars.length := by
  induction chars with
  | nil => simp
  | cons c rest ih =>
    rw [List.splitOn_cons_eq_if_modifyHead]
    obtain ⟨head, tail, hsplit⟩ := List.exists_cons_of_ne_nil (List.splitOn_ne_nil '/' rest)
    rw [hsplit, List.countP_cons] at ih
    split
    · rw [hsplit, List.countP_cons, List.countP_cons, List.length_cons]
      simp only [List.isEmpty_nil, Bool.not_true, Bool.false_eq_true, if_false]
      omega
    · rw [hsplit, List.modifyHead_cons, List.countP_cons, List.length_cons]
      simp only [List.isEmpty_cons, Bool.not_false, if_true]
      omega

/-- A path has no more steps than characters. -/
theorem length_steps_le (p : PathText) : (steps p).length ≤ p.length := by
  refine Nat.le_trans ?_ (countP_splitOn_le p.toList)
  rw [steps, segments, List.filter_map, List.length_map, ← List.countP_eq_length_filter]
  refine List.countP_mono_left fun part _ hpart => ?_
  cases part with
  | nil => simp [isFiller] at hpart
  | cons c chars => rfl

/-- What is dropped names nothing. -/
theorem exists_fillers_of_dropFiller (relative : Bool) (l : List String) :
    ∃ fillers, l = fillers ++ dropFiller relative l ∧ moves fillers = [] := by
  obtain ⟨fillers, hsplit⟩ := dropFiller_suffix relative l
  refine ⟨fillers, hsplit.symm, ?_⟩
  have hmoves := congrArg moves hsplit
  rw [moves_append, moves_dropFiller] at hmoves
  simpa using hmoves

/-- A relative path starts with a segment that is not empty, which is never dropped. -/
theorem dropFiller_front_ne_nil {p : PathText} {front left : List String}
    (hbody : body p = front ++ left) (hleft : moves left ≠ []) (hfront : front ≠ [])
    (habs : isAbsolute p = false) : dropFiller true front.reverse ≠ [] := by
  obtain ⟨first, others, rfl⟩ := List.exists_cons_of_ne_nil hfront
  have hp : p ≠ "" := by
    rintro rfl
    have hleft' : left ≠ [] := by
      rintro rfl
      exact hleft rfl
    simp [body] at hbody
    exact hleft' hbody.2.2
  obtain ⟨s, more, hsegments, hs⟩ := segments_of_relative hp habs
  simp only [body, habs, Bool.false_eq_true, if_false, hsegments, List.cons_append,
    List.cons.injEq] at hbody
  rw [hbody.1] at hs
  simpa using dropFiller_ne_nil (l := others.reverse) hs

/-- The parent of a path whose last steps are told keeps what comes before them, but for segments at
its end that name nothing. -/
theorem parent?_of_body {p : PathText} {front left : List String} (hbody : body p = front ++ left)
    (hleft : moves left ≠ []) (hfirst : front ≠ [] ∨ isAbsolute p = true) :
    ∃ kept fillers, front = kept ++ fillers ∧ moves fillers = [] ∧
      (kept ≠ [] ∨ isAbsolute p = true) ∧
      parent? p = some ((if isAbsolute p then "/" else "")
        ++ "/".intercalate (kept ++ above left)) := by
  have hright : front.reverse ≠ [] ∨ (!isAbsolute p) = false := by simpa using hfirst
  have hdrop : dropFiller (!isAbsolute p) (body p).reverse
      = dropFiller false left.reverse ++ front.reverse := by
    rw [hbody, List.reverse_append]
    exact dropFiller_append_of_moves (by simpa [moves_reverse] using hleft) hright
  have hparent (last : String) (rest : List String)
      (hlast : dropFiller false left.reverse = last :: rest) :
      parent? p = some ((if isAbsolute p then "/" else "")
        ++ "/".intercalate (dropFiller (!isAbsolute p) (rest ++ front.reverse)).reverse) := by
    rw [hlast, List.cons_append] at hdrop
    unfold parent?
    dsimp only
    rw [hdrop]
    cases isAbsolute p <;> simp
  have habove : above left = (dropFiller false (dropFiller false left.reverse).tail).reverse := rfl
  cases hlast : dropFiller false left.reverse with
  | nil =>
    have hmoves := moves_dropFiller false left.reverse
    rw [hlast, moves_reverse] at hmoves
    exact absurd (List.reverse_eq_nil_iff.mp hmoves.symm) hleft
  | cons last rest =>
    rw [hlast, List.tail_cons] at habove
    rw [hparent last rest hlast, habove]
    by_cases hrest : moves rest = []
    · obtain ⟨fillers, hsplit, hfillers⟩ :=
        exists_fillers_of_dropFiller (!isAbsolute p) front.reverse
      refine ⟨(dropFiller (!isAbsolute p) front.reverse).reverse, fillers.reverse, ?_, ?_, ?_, ?_⟩
      · rw [← List.reverse_append, ← hsplit, List.reverse_reverse]
      · simp [moves_reverse, hfillers]
      · refine hfirst.elim (fun hfront => ?_) Or.inr
        cases habs : isAbsolute p with
        | true => exact Or.inr rfl
        | false => exact Or.inl (by simpa using dropFiller_front_ne_nil hbody hleft hfront habs)
      · rw [dropFiller_append_of_fillers hrest hright, dropFiller_of_fillers hrest]
        simp
    · refine ⟨front, [], by simp, rfl, hfirst, ?_⟩
      rw [dropFiller_append_of_moves hrest hright]
      simp

theorem mem_intercalate {sep : List Char} {l : List (List Char)} {c : Char} :
    c ∈ sep.intercalate l ↔ (c ∈ sep ∧ 1 < l.length) ∨ ∃ part ∈ l, c ∈ part := by
  induction l with
  | nil => simp
  | cons part rest ih =>
    cases rest with
    | nil => simp
    | cons next more =>
      rw [List.intercalate_cons_cons, List.mem_append, List.mem_append, ih]
      simp only [List.length_cons, List.mem_cons, exists_eq_or_imp]
      grind

theorem mem_of_mem_segments {p s : String} {c : Char} (hs : s ∈ segments p) (hc : c ∈ s.toList) :
    c ∈ p.toList := by
  simp only [segments, List.mem_map] at hs
  obtain ⟨part, hpart, rfl⟩ := hs
  rw [String.toList_ofList] at hc
  have hjoined : ['/'].intercalate (p.toList.splitOn '/') = p.toList := List.intercalate_splitOn '/'
  rw [← hjoined, mem_intercalate]
  exact Or.inr ⟨part, hpart, hc⟩

theorem mem_of_mem_body {p s : String} {c : Char} (hs : s ∈ body p) (hc : c ∈ s.toList) :
    c ∈ p.toList := by
  refine mem_of_mem_segments ?_ hc
  unfold body at hs
  split at hs
  · exact List.mem_of_mem_drop hs
  · exact hs

theorem mem_intercalate_slash {l : List String} {c : Char}
    (hc : c ∈ ("/".intercalate l).toList) : c = '/' ∨ ∃ s ∈ l, c ∈ s.toList := by
  rw [String.toList_intercalate, mem_intercalate] at hc
  simpa using hc.imp_left And.left

theorem moves_of_names {names : List String} (h : ∀ name ∈ names, isFiller name = false) :
    moves names = names := by
  rw [moves, List.filter_eq_self]
  intro name hname
  simp [h name hname]

theorem above_of_names {names : List String} (h : ∀ name ∈ names, isFiller name = false) :
    above names = names.dropLast := by
  rw [← moves_of_names fun name hname => h name ((above_initial names).subset hname), moves_above,
    moves_of_names h]

/-- The segments of a joined path come after those of the base, whose last one may be empty. -/
theorem body_join {p q : PathText} (hp : p ≠ "") (hq : isAbsolute q = false) :
    ∃ front, (body p = front ∨ body p = front ++ [""]) ∧ (front ≠ [] ∨ isAbsolute p = true) ∧
      body (join p q) = front ++ segments q := by
  have habs := isAbsolute_join (p := p) hq
  unfold join at habs ⊢
  rw [if_neg (by simp [hq])] at habs ⊢
  by_cases hlast : p.toList.getLast? = some '/'
  · rw [if_pos (Or.inr hlast)] at habs ⊢
    obtain ⟨front, rfl⟩ := eq_append_slash_of_getLast? hlast
    have hsegments : segments (front ++ "/") = segments front ++ [""] := by
      simpa using segments_append_slash front ""
    cases hroot : isAbsolute (front ++ "/") with
    | true =>
      rw [hroot] at habs
      obtain ⟨first, rest, hcons⟩ := List.exists_cons_of_ne_nil (segments_ne_nil front)
      refine ⟨rest, Or.inr ?_, Or.inr rfl, ?_⟩
      · simp [body, hroot, hsegments, hcons]
      · simp [body, habs, segments_append_slash, hcons]
    | false =>
      rw [hroot] at habs
      refine ⟨segments front, Or.inr ?_, Or.inl (segments_ne_nil front), ?_⟩
      · simp [body, hroot, hsegments]
      · simp [body, habs, segments_append_slash]
  · rw [if_neg (by simp [hp, hlast])] at habs ⊢
    refine ⟨body p, Or.inl rfl, Or.inl (body_ne_nil p), ?_⟩
    cases hroot : isAbsolute p with
    | true =>
      rw [hroot] at habs
      obtain ⟨first, rest, hcons⟩ := List.exists_cons_of_ne_nil (segments_ne_nil p)
      simp [body, habs, hroot, segments_append_slash, hcons]
    | false =>
      rw [hroot] at habs
      simp [body, habs, hroot, segments_append_slash]

/-- Joining is associative, as long as the middle part ends with a name. -/
theorem join_join {p q r : PathText} (hq : isAbsolute q = false) (hne : q ≠ "")
    (hlast : q.toList.getLast? ≠ some '/') (hr : isAbsolute r = false) :
    join (join p q) r = join p (join q r) := by
  have hright : join q r = q ++ "/" ++ r := by simp [join, hr, hne, hlast]
  have habs : isAbsolute (q ++ "/" ++ r) = false := by
    rw [← hright, isAbsolute_join hr]
    exact hq
  have hslashed : ('/' :: q.toList).getLast? ≠ some '/' := by
    obtain ⟨c, chars, hcons⟩ := List.exists_cons_of_ne_nil (l := q.toList) (by simpa using hne)
    rw [hcons] at hlast ⊢
    rwa [List.getLast?_cons_cons]
  rw [hright]
  unfold join
  simp only [hq, hr, habs, Bool.false_eq_true, if_false]
  split
  next => simp [hne, List.getLast?_append, hlast, String.append_assoc]
  next => simp [hne, List.getLast?_append, hslashed, String.append_assoc]

/-- The step that a component stands for, if it is one. -/
def Component.step? : Component → Option String
  | .name segment => some segment
  | .parent => some ".."
  | .root | .current => none

theorem filterMap_component? (segments : List String) :
    (segments.filterMap component?).filterMap Component.step? = moves segments := by
  induction segments with
  | nil => rfl
  | cons segment rest ih =>
    by_cases hfiller : isFiller segment = true
    · have hnothing : segment = "" ∨ segment = "." := by simpa [isFiller] using hfiller
      have hnone : component? segment = none := by rw [component?, if_pos hnothing]
      rw [moves_cons_filler hfiller, List.filterMap_cons_none hnone, ih]
    · have hsome : component? segment
          = some (if segment = ".." then .parent else .name segment) := by
        simp only [isFiller, Bool.or_eq_true, beq_iff_eq, not_or] at hfiller
        simp only [component?, hfiller, or_self, if_false]
        split <;> rfl
      have hstep : (if segment = ".." then Component.parent else .name segment).step?
          = some segment := by
        split
        next hup => rw [hup, Component.step?]
        next => rfl
      rw [moves_cons (by simpa using hfiller), List.filterMap_cons_some hsome,
        List.filterMap_cons_some hstep, ih]

/-- The components of a path tell its steps: the root and a leading dot are none. -/
theorem filterMap_components (p : PathText) :
    (components p).filterMap Component.step? = steps p := by
  rw [← moves_body, components]
  split
  next => exact (List.filterMap_cons_none rfl).trans (filterMap_component? _)
  next =>
    cases body p with
    | nil => rfl
    | cons first rest =>
      rw [relativeComponents, List.filterMap_append, filterMap_component?]
      by_cases hdot : first = "."
      · rw [if_pos hdot, moves_cons_filler (by simp [isFiller, hdot])]
        rfl
      · rw [if_neg hdot, ← List.singleton_append, moves_append, ← filterMap_component? [first]]
        cases hfirst : component? first <;> simp [List.filterMap_cons, hfirst]

/-- Paths with the same components take the same steps. -/
theorem steps_of_same {p q : PathText} (h : same p q = true) : steps p = steps q := by
  rw [← filterMap_components, ← filterMap_components, beq_iff_eq.mp h]

theorem isAbsolute_iff_root_mem (p : PathText) :
    isAbsolute p = true ↔ .root ∈ components p := by
  have hcomponent (segment : String) : component? segment ≠ some .root := by
    unfold component?
    repeat' split
    all_goals simp
  unfold components
  split
  next habs => simp [habs]
  next hrel =>
    cases body p with
    | nil => simp [hrel, relativeComponents]
    | cons first rest =>
      have hfirst : Component.root ∉ (if first = "." then [.current]
          else (component? first).toList) := by
        split <;> simp [hcomponent]
      simp [hrel, relativeComponents, hfirst, hcomponent]

theorem isAbsolute_of_same {p q : PathText} (h : same p q = true) :
    isAbsolute p = isAbsolute q := by
  rw [Bool.eq_iff_iff, isAbsolute_iff_root_mem, isAbsolute_iff_root_mem, beq_iff_eq.mp h]

theorem not_same_join_name {p : PathText} {name other : String}
    (hname : FileSystem.IsName name) (hother : FileSystem.IsName other) (hne : name ≠ other) :
    same (join p name) (join p other) = false := by
  rw [← Bool.not_eq_true]
  intro hsame
  have hrel := FileSystem.isAbsolute_of_isName hname
  have hrel' := FileSystem.isAbsolute_of_isName hother
  have hsteps := steps_of_same hsame
  rw [steps_join hrel, steps_join hrel', FileSystem.steps_of_isName hname,
    FileSystem.steps_of_isName hother] at hsteps
  exact hne (by simpa using hsteps)

/-- The file name of a path is its last segment, if that is a name. -/
theorem fileName?_of_body {p : PathText} {front : List String} {name : String}
    (hbody : body p = front ++ [name]) (hname : isFiller name = false) (hup : name ≠ "..") :
    fileName? p = some name := by
  have hsome : component? name = some (.name name) := by
    simp only [isFiller, Bool.or_eq_false_iff, beq_eq_false_iff_ne] at hname
    simp [component?, hname, hup]
  have hlast : (components p).getLast? = some (.name name) := by
    unfold components
    split
    · simp [hbody, hsome, List.getLast?_cons]
    · rw [hbody]
      cases front with
      | nil =>
        have hdot : name ≠ "." := by
          rintro rfl
          cases hname
        simp [relativeComponents, hsome, hdot]
      | cons first rest => simp [relativeComponents, hsome]
  rw [fileName?, hlast]

end Path

namespace FileSystem

variable {fs after : FileSystem}

/-- A path that leads to a node takes its first segment to a place, whatever comes after. -/
theorem follow_cons_found {place loc : Location} {node : Node} {segment : String}
    {rest : List String} (h : fs.follow place (segment :: rest) = .ok (.found loc node)) :
    ∃ next, ∀ more, fs.follow place (segment :: more) = fs.follow next more := by
  cases follow_eq_ok_iff.mp h with
  | filler hdir hfiller => exact ⟨place, follow_cons_filler hdir hfiller⟩
  | step hdir hfiller hpasses =>
    exact ⟨Location.step place segment, follow_cons_step hdir hfiller hpasses⟩

/-- A path is followed through a directory. -/
theorem follow_append {place loc : Location} {front : List String}
    (h : fs.follow place front = .ok (.found loc .directory)) (back : List String) :
    fs.follow place (front ++ back) = fs.follow loc back := by
  induction front generalizing place with
  | nil =>
    obtain ⟨rfl, -⟩ := follow_found h
    rfl
  | cons segment rest ih =>
    obtain ⟨next, hnext⟩ := follow_cons_found h
    rw [hnext] at h
    rw [List.cons_append, hnext]
    exact ih h

/-- Segments that name nothing may be left out at the end of a way to a directory. -/
theorem follow_of_append_fillers {place loc : Location} {front fillers : List String}
    (hfillers : Path.moves fillers = [])
    (h : fs.follow place (front ++ fillers) = .ok (.found loc .directory)) :
    fs.follow place front = .ok (.found loc .directory) := by
  induction front generalizing place with
  | nil =>
    obtain ⟨hloc, hget⟩ := follow_found h
    rw [List.nil_append, hfillers] at hloc
    subst hloc
    exact follow_fillers_directory hget rfl
  | cons segment rest ih =>
    rw [List.cons_append] at h
    obtain ⟨next, hnext⟩ := follow_cons_found h
    rw [hnext] at h ⊢
    exact ih h

theorem follow_directory_of_stays {place loc : Location} {front : List String}
    (hstays : ∀ d, fs.get? d = some .directory → after.get? d = some .directory)
    (h : fs.follow place front = .ok (.found loc .directory)) :
    after.follow place front = .ok (.found loc .directory) := by
  obtain ⟨hloc, hget⟩ := follow_found h
  rw [follow_congr fun d hd => ?_]
  · exact h
  have hdir : fs.get? d = some .directory := by
    rcases Location.mem_trail_iff_dropLast.mp hd with hd | rfl
    · by_cases hfront : front = []
      · subst hfront
        simp only [Path.moves, List.filter_nil, List.dropLast_nil, Location.trail,
          List.mem_singleton] at hd
        rwa [hd, ← Location.reach_nil place, ← show _ = Location.reach place [] from hloc]
      · exact follow_trail h hfront d hd
    · rwa [← hloc]
  rw [hstays d hdir, hdir]

/-- The beginning of a way to a node leads to a directory, if anything comes after it. -/
theorem follow_front_of_found {place loc : Location} {node : Node} {front rest : List String}
    {segment : String} (h : fs.follow place (front ++ segment :: rest) = .ok (.found loc node)) :
    ∃ mid, fs.follow place front = .ok (.found mid .directory) := by
  induction front generalizing place with
  | nil =>
    refine ⟨place, ?_⟩
    rw [List.nil_append] at h
    have hdir := (follow_eq_ok_iff.mp h).directory
    simp [follow, hdir]
  | cons first more ih =>
    rw [List.cons_append] at h
    obtain ⟨next, hnext⟩ := follow_cons_found h
    rw [hnext] at h ⊢
    exact ih h

/-- A path is joined to a directory, if anything is found there. -/
theorem isDirectory_of_join {p q : PathText} {loc : Location} {node : Node} (hp : p ≠ "")
    (hrel : Path.isAbsolute q = false) (h : fs.resolve (Path.join p q) = .ok (.found loc node)) :
    fs.isDirectory p = true := by
  obtain ⟨front, hbody, -, hjoin⟩ := Path.body_join hp hrel
  obtain ⟨segment, rest, hsegments⟩ := List.exists_cons_of_ne_nil (Path.segments_ne_nil q)
  have hfollow := resolve_eq_follow h
  rw [start_join fs hrel, hjoin, hsegments] at hfollow
  obtain ⟨mid, hmid⟩ := follow_front_of_found hfollow
  have hnul : '\x00' ∉ p.toList := by
    intro hmem
    have hmem' : '\x00' ∈ (Path.join p q).toList := by
      unfold Path.join
      rw [if_neg (by simp [hrel])]
      split <;> simp [hmem]
    unfold resolve at h
    split at h
    next => cases h
    next => simp [hmem'] at h
  have hwhole : fs.follow (fs.start p) (Path.body p) = .ok (.found mid .directory) := by
    rcases hbody with hbody | hbody
    · rw [hbody, hmid]
    · rw [hbody, follow_append hmid,
        follow_fillers_directory (follow_found hmid).2 (by simp [Path.moves, Path.isFiller])]
  have hresolve : fs.resolve p = .ok (.found mid .directory) := by
    rw [resolve, if_neg hp, if_neg (by simpa using hnul)]
    exact hwhole
  simp [isDirectory, find?, hresolve]

/-- What leads to a file ends with the name of the file. -/
theorem follow_file {place loc : Location} {content : ByteArray} {executable : Bool}
    {segments : List String} (wf : fs.WellFormed)
    (h : fs.follow place segments = .ok (.found loc (.file content executable))) :
    (segments = [] ∧ loc = place) ∨ ∃ front name, segments = front ++ [name] ∧
      Path.isFiller name = false ∧ name ≠ ".." ∧ loc.getLast? = some name := by
  have hfile := (follow_found h).2
  rw [follow_eq_ok_iff] at h
  generalize htarget : Target.found loc (.file content executable) = target at h
  -- the rest of the way ends with the name, unless there is no rest
  have later {segment : String} {rest : List String} {next : Location}
      (h : (rest = [] ∧ loc = next) ∨ ∃ front name, rest = front ++ [name] ∧
        Path.isFiller name = false ∧ name ≠ ".." ∧ loc.getLast? = some name)
      (hend : loc = next → Path.isFiller segment = false ∧ segment ≠ ".." ∧
        loc.getLast? = some segment) :
      ∃ front name, segment :: rest = front ++ [name] ∧
        Path.isFiller name = false ∧ name ≠ ".." ∧ loc.getLast? = some name := by
    rcases h with ⟨rfl, hloc⟩ | ⟨front, name, rfl, hname⟩
    · exact ⟨[], segment, rfl, hend hloc⟩
    · exact ⟨segment :: front, name, rfl, hname⟩
  induction h with
  | here =>
    cases htarget
    exact Or.inl ⟨rfl, rfl⟩
  | filler hdir _ _ ih =>
    refine Or.inr (later (ih htarget) fun hloc => ?_)
    rw [hloc, hdir] at hfile
    cases hfile
  | @step place segment rest target hdir hfiller _ _ ih =>
    refine Or.inr (later (ih htarget) fun hloc => ?_)
    by_cases hup : segment = ".."
    · rw [hloc, Location.step, if_pos hup, wf.directory_above hdir] at hfile
      cases hfile
    · exact ⟨hfiller, hup, by simp [hloc, Location.step, hup]⟩
  | free => cases htarget

/-- A path that leads to a file has its name. -/
theorem fileName?_of_file {p : PathText} {loc : Location} {content : ByteArray} {executable : Bool}
    (wf : fs.WellFormed) (h : fs.resolve p = .ok (.found loc (.file content executable))) :
    Path.fileName? p = loc.getLast? := by
  rcases follow_file wf (resolve_eq_follow h) with
    ⟨hbody, -⟩ | ⟨front, name, hbody, hname, hup, hlast⟩
  · exact absurd hbody (Path.body_ne_nil p)
  · rw [Path.fileName?_of_body hbody hname hup, hlast]

/-- A path passes through a directory, from where the given segments are left. Something of the path
comes before them, so that parents of the path are paths as well. -/
structure Enters (fs : FileSystem) (p : PathText) (top : Location) (left : List String) : Prop where
  nonempty : p ≠ ""
  no_nul : '\x00' ∉ p.toList
  through : ∃ front, Path.body p = front ++ left ∧
    fs.follow (fs.start p) front = .ok (.found top .directory) ∧
    (front ≠ [] ∨ Path.isAbsolute p = true)

namespace Enters

variable {p : PathText} {top : Location} {left : List String}

theorem directory (h : Enters fs p top left) : fs.get? top = some .directory := by
  obtain ⟨front, -, hfollow, -⟩ := h.through
  exact (follow_found hfollow).2

/-- What a path leads to is told by what is left of it in the directory. -/
theorem resolve (h : Enters fs p top left) : fs.resolve p = fs.follow top left := by
  obtain ⟨front, hbody, hfollow, -⟩ := h.through
  unfold FileSystem.resolve
  rw [if_neg h.nonempty, if_neg (by simpa using h.no_nul), hbody]
  exact follow_append hfollow left

theorem length_moves_le (h : Enters fs p top left) : (Path.moves left).length ≤ p.length := by
  obtain ⟨front, hbody, -, -⟩ := h.through
  refine Nat.le_trans ?_ (Path.length_steps_le p)
  rw [← Path.moves_body, hbody, Path.moves_append, List.length_append]
  exact Nat.le_add_left _ _

theorem of_stays (h : Enters fs p top left) (hcurrent : after.current = fs.current)
    (hstays : ∀ d, fs.get? d = some .directory → after.get? d = some .directory) :
    Enters after p top left := by
  obtain ⟨front, hbody, hfollow, hfirst⟩ := h.through
  refine ⟨h.nonempty, h.no_nul, front, hbody, ?_, hfirst⟩
  rw [start_congr hcurrent]
  exact follow_directory_of_stays hstays hfollow

/-- A path that is joined to a directory passes through it. -/
theorem of_join {q : PathText} (hfind : fs.find? p = some (top, .directory))
    (hrel : Path.isAbsolute q = false) (hnul : '\x00' ∉ q.toList) :
    Enters fs (Path.join p q) top (Path.segments q) := by
  have hresolve := find?_eq_some.mp hfind
  have hfollow := resolve_eq_follow hresolve
  have hp : p ≠ "" := by
    rintro rfl
    cases hresolve
  have hnul' : '\x00' ∉ p.toList := by
    intro hmem
    simp [FileSystem.resolve, hp, hmem] at hresolve
  obtain ⟨front, hbody, hfirst, hjoin⟩ := Path.body_join hp hrel
  refine ⟨?_, ?_, front, hjoin, ?_, ?_⟩
  · unfold Path.join
    rw [if_neg (by simp [hrel])]
    split <;> simp [hp]
  · unfold Path.join
    rw [if_neg (by simp [hrel])]
    split <;> simp [hnul, hnul']
  · rw [start_join fs hrel]
    rcases hbody with hbody | hbody
    · rwa [← hbody]
    · rw [hbody] at hfollow
      exact follow_of_append_fillers (by simp [Path.moves, Path.isFiller]) hfollow
  · rwa [Path.isAbsolute_join hrel]

/-- A directory that is missing for want of its parent has a step to take. -/
theorem moves_ne_nil_of_notFound (h : Enters fs p top left)
    (hmissing : fs.createDirectory p = .error .notFound) : Path.moves left ≠ [] := by
  intro hleft
  have hresolve := h.resolve
  rw [follow_fillers_directory h.directory hleft] at hresolve
  simp [createDirectory, hresolve] at hmissing

/-- The parent of a path through a directory passes through it as well. -/
theorem parent (h : Enters fs p top left) (hleft : Path.moves left ≠ []) :
    ∃ q, Path.parent? p = some q ∧ Enters fs q top (Path.above left) := by
  obtain ⟨front, hbody, hfollow, hfirst⟩ := h.through
  obtain ⟨kept, fillers, rfl, hfillers, hkept, hparent⟩ :=
    Path.parent?_of_body hbody hleft hfirst
  have hfollow := follow_of_append_fillers hfillers hfollow
  have hmem {s : String} (hs : s ∈ kept ++ Path.above left) : s ∈ Path.body p := by
    rw [hbody]
    rcases List.mem_append.mp hs with hs | hs
    · simp [hs]
    · simp [(Path.above_initial left).subset hs]
  have hslash : ∀ s ∈ kept ++ Path.above left, '/' ∉ s.toList :=
    fun s hs => Path.slash_not_mem_of_mem_body (hmem hs)
  have hnul : '\x00' ∉ ("/".intercalate (kept ++ Path.above left)).toList := by
    intro hnul
    rcases Path.mem_intercalate_slash hnul with hnul | ⟨s, hs, hnul⟩
    · cases hnul
    · exact h.no_nul (Path.mem_of_mem_body (hmem hs) hnul)
  have habs' := (Path.parent?_eq_some hparent).1
  -- the text of the parent starts with a slash or with a segment that is not empty
  refine ⟨_, hparent, ?_⟩
  cases habs : Path.isAbsolute p with
  | true =>
    simp only [habs, if_true] at hparent habs' ⊢
    have hstart : fs.start p = [] := by simp [start, habs]
    rw [hstart] at hfollow
    refine ⟨by simp, by simpa using hnul, ?_⟩
    by_cases hnone : kept ++ Path.above left = []
    · -- only the root itself is left, which is written with an empty segment
      obtain ⟨hkept, habove⟩ := List.append_eq_nil_iff.mp hnone
      rw [hkept] at hfollow
      obtain ⟨rfl, -⟩ := follow_found hfollow
      refine ⟨[""], by simp [hkept, habove, Path.body, Path.isAbsolute]; rfl, ?_, Or.inl (by simp)⟩
      simp [start, Path.moves, follow_fillers_directory, Path.isFiller]
    · refine ⟨kept, ?_, by simpa [start] using hfollow, Or.inr (by simp)⟩
      simp [Path.body, Path.segments_slash_append, Path.segments_intercalate hnone hslash]
  | false =>
    simp only [habs, Bool.false_eq_true, if_false, String.empty_append] at hparent habs' ⊢
    have hkept : kept ≠ [] := by simpa [habs] using hkept
    have hnone : kept ++ Path.above left ≠ [] := by simp [hkept]
    have hsegments := Path.segments_intercalate hnone hslash
    refine ⟨?_, hnul, kept, ?_, ?_, Or.inl hkept⟩
    · intro hempty
      obtain ⟨s, more, hp, hs⟩ := Path.segments_of_relative h.nonempty habs
      obtain ⟨first, others, rfl⟩ := List.exists_cons_of_ne_nil hkept
      rw [hempty] at hsegments
      simp only [Path.body, habs, Bool.false_eq_true, if_false] at hbody
      rw [hp] at hbody
      simp only [List.cons_append, List.cons.injEq] at hbody
      simp only [Path.segments_empty, List.cons_append, List.cons.injEq] at hsegments
      exact hs (hbody.1.trans hsegments.1.symm)
    · simp [Path.body, habs', hsegments]
    · simpa [start, habs, habs'] using hfollow

end Enters

/-- A text that a file system can hold as a name. -/
structure Storable (name : String) : Prop where
  isName : IsName name
  no_nul : '\x00' ∉ name.toList
  fits : ¬nameLimit < name.utf8ByteSize

instance (name : String) : Decidable (Storable name) :=
  decidable_of_iff (IsName name ∧ '\x00' ∉ name.toList ∧ ¬nameLimit < name.utf8ByteSize)
    ⟨fun ⟨hname, hnul, hfits⟩ => ⟨hname, hnul, hfits⟩, fun h => ⟨h.isName, h.no_nul, h.fits⟩⟩

theorem Storable.isFiller {name : String} (h : Storable name) : Path.isFiller name = false :=
  isFiller_of_isName h.isName

/-- A name leads to the entry of a directory, or is free. -/
theorem follow_name {place : Location} {name : String} (hdir : fs.get? place = some .directory)
    (hname : Storable name) :
    fs.follow place [name] = .ok (match fs.get? (place ++ [name]) with
      | some node => .found (place ++ [name]) node
      | none => .free (place ++ [name]) false) := by
  rw [follow, hdir]
  simp only [hname.isFiller, hname.isName.ne_parent, hname.fits, if_false, Bool.false_eq_true]
  cases hget : fs.get? (place ++ [name]) with
  | none => simp
  | some node => simp [follow, hget]

theorem resolve_join_name {p : PathText} {top : Location} {name : String}
    (hfind : fs.find? p = some (top, .directory)) (hname : Storable name) :
    fs.resolve (Path.join p name) = .ok (match fs.get? (top ++ [name]) with
      | some node => .found (top ++ [name]) node
      | none => .free (top ++ [name]) false) := by
  have hsegments := segments_of_isName hname.isName
  have henters := Enters.of_join hfind (isAbsolute_of_isName hname.isName) hname.no_nul
  rw [henters.resolve, hsegments, follow_name henters.directory hname]

theorem isDirectory_join_name {p : PathText} {top : Location} {name : String}
    (hfind : fs.find? p = some (top, .directory)) (hname : Storable name) :
    fs.isDirectory (Path.join p name) = true ↔ fs.get? (top ++ [name]) = some .directory := by
  unfold isDirectory find?
  rw [resolve_join_name hfind hname]
  cases fs.get? (top ++ [name]) with
  | none => simp
  | some node => cases node <;> simp

end FileSystem
end SdkEvidence
