import Mathlib.Data.List.Nodup
import SdkEvidence.Dictionary

/-!
# What a dictionary holds

A value is found under its key whatever else is set (`get?_insert`), and values that are taken out
by distinct keys come in the order of the keys (`takeAll_insertAll`). Entries that are in order
already are the dictionary that they make (`insertAll_of_sorted`). Where values are set only for
keys without one, the first value for a key stays (`Sorted.get?_foldl_insertNew`).
-/
namespace SdkEvidence.Dictionary

variable {α : Type}

theorem get?_cons (key other : String) (value : α) (rest : Dictionary α) :
    get? ((key, value) :: rest) other = if other = key then some value else get? rest other := by
  unfold get?
  rw [List.lookup_cons]
  by_cases h : other = key
  · simp [h]
  · simp [h, beq_eq_false_iff_ne.mpr h]

theorem get?_insert (dictionary : Dictionary α) (key other : String) (value : α) :
    (dictionary.insert key value).get? other
      = if other = key then some value else dictionary.get? other := by
  induction dictionary with
  | nil => exact get?_cons key other value []
  | cons entry rest ih =>
    obtain ⟨k, v⟩ := entry
    rw [insert]
    split
    next => exact get?_cons key other value ((k, v) :: rest)
    next =>
      split
      next heq =>
        rw [get?_cons, get?_cons, ← heq]
        split <;> rfl
      next hne =>
        rw [get?_cons, ih, get?_cons]
        by_cases h : other = k
        · simp [h, Ne.symm hne]
        · simp [h]

theorem get?_erase_of_ne (dictionary : Dictionary α) {key other : String} (h : other ≠ key) :
    (dictionary.erase key).get? other = dictionary.get? other := by
  unfold erase
  induction dictionary with
  | nil => rfl
  | cons entry rest ih =>
    obtain ⟨k, v⟩ := entry
    rw [List.filter_cons]
    split
    next => rw [get?_cons, get?_cons, ih]
    next herased =>
      have hk : k = key := by simpa using herased
      rw [get?_cons, if_neg (hk ▸ h), ih]

theorem get?_insertAll (dictionary : Dictionary α) (keys : List String) (f : String → α)
    (key : String) :
    (dictionary.insertAll (keys.map fun key => (key, f key))).get? key
      = if key ∈ keys then some (f key) else dictionary.get? key := by
  unfold insertAll
  induction keys generalizing dictionary with
  | nil => simp
  | cons first rest ih =>
    rw [List.map_cons, List.foldl_cons, ih, get?_insert]
    by_cases hrest : key ∈ rest
    · simp [hrest]
    · by_cases hfirst : key = first <;> simp [hrest, hfirst]

/-- Of the values that are set for a key the last one stays. -/
theorem get?_insertAll_or (dictionary : Dictionary α) (pairs : List (String × α)) (key : String) :
    (dictionary.insertAll pairs).get? key
      = (pairs.reverse.lookup key).or (dictionary.get? key) := by
  unfold insertAll
  induction pairs generalizing dictionary with
  | nil => rfl
  | cons first rest ih =>
    have hfirst : List.lookup key [first] = if key = first.1 then some first.2 else none :=
      get?_cons first.1 key first.2 []
    rw [List.foldl_cons, ih, get?_insert, List.reverse_cons, List.lookup_append, Option.or_assoc,
      hfirst]
    split <;> rfl

/-- Taking a value out leaves those of the other keys. -/
theorem takeAll_of_nodup {dictionary : Dictionary α} {keys : List String} {f : String → α}
    (hkeys : keys.Nodup) (h : ∀ key ∈ keys, dictionary.get? key = some (f key)) :
    dictionary.takeAll keys = keys.map f := by
  induction keys generalizing dictionary with
  | nil => rfl
  | cons key rest ih =>
    obtain ⟨hkey, hrest⟩ := List.nodup_cons.mp hkeys
    have hleft : ∀ other ∈ rest, (dictionary.erase key).get? other = some (f other) := by
      intro other hother
      rw [get?_erase_of_ne _ (ne_of_mem_of_not_mem hother hkey)]
      exact h other (List.mem_cons_of_mem key hother)
    rw [takeAll, h key List.mem_cons_self, List.map_cons, ih hrest hleft]

/-- What is filed under distinct keys is taken out in the order of the keys. -/
theorem takeAll_insertAll {keys : List String} (hkeys : keys.Nodup) (f : String → α) :
    (insertAll [] (keys.map fun key => (key, f key))).takeAll keys = keys.map f :=
  takeAll_of_nodup hkeys fun key hkey => by rw [get?_insertAll, if_pos hkey]

/-! ## Keys in order -/

/-- The keys increase, so that none is there twice. -/
def Sorted (dictionary : Dictionary α) : Prop :=
  dictionary.Pairwise fun a b => a.1 < b.1

theorem mem_insert {dictionary : Dictionary α} {key : String} {value : α} {entry : String × α}
    (h : entry ∈ dictionary.insert key value) : entry = (key, value) ∨ entry ∈ dictionary := by
  induction dictionary with
  | nil => exact Or.inl (List.mem_singleton.mp h)
  | cons first rest ih =>
    rw [insert] at h
    split at h
    next => exact List.mem_cons.mp h
    next =>
      split at h
      next => exact (List.mem_cons.mp h).imp_right (List.mem_cons_of_mem first)
      next =>
        rcases List.mem_cons.mp h with rfl | h
        · exact Or.inr List.mem_cons_self
        · exact (ih h).imp_right (List.mem_cons_of_mem first)

theorem Sorted.insert {dictionary : Dictionary α} (h : Sorted dictionary) (key : String)
    (value : α) : Sorted (dictionary.insert key value) := by
  induction dictionary with
  | nil => exact List.pairwise_singleton _ _
  | cons first rest ih =>
    obtain ⟨hfirst, hrest⟩ := List.pairwise_cons.mp h
    rw [Dictionary.insert]
    split
    next hlt =>
      refine List.pairwise_cons.mpr ⟨fun entry hentry => ?_, h⟩
      rcases List.mem_cons.mp hentry with rfl | hentry
      · exact hlt
      · exact String.lt_trans hlt (hfirst entry hentry)
    next hlt =>
      split
      next heq => exact List.pairwise_cons.mpr ⟨heq ▸ hfirst, hrest⟩
      next hne =>
        refine List.pairwise_cons.mpr ⟨fun entry hentry => ?_, ih hrest⟩
        rcases mem_insert hentry with rfl | hentry
        · exact Decidable.byContradiction fun hgt =>
            hne (String.le_antisymm (String.not_lt.mp hgt) (String.not_lt.mp hlt))
        · exact hfirst entry hentry

theorem Sorted.insertAll {dictionary : Dictionary α} (h : Sorted dictionary)
    (pairs : List (String × α)) : Sorted (dictionary.insertAll pairs) := by
  induction pairs generalizing dictionary with
  | nil => exact h
  | cons pair rest ih => exact ih (h.insert pair.1 pair.2)

theorem insert_of_lt {dictionary : Dictionary α} {key : String}
    (h : ∀ entry ∈ dictionary, entry.1 < key) (value : α) :
    dictionary.insert key value = dictionary ++ [(key, value)] := by
  induction dictionary with
  | nil => rfl
  | cons entry rest ih =>
    obtain ⟨hentry, hrest⟩ := List.forall_mem_cons.mp h
    have hne : key ≠ entry.1 := by
      rintro rfl
      exact String.lt_irrefl _ hentry
    rw [insert, if_neg (String.lt_asymm hentry), if_neg hne, ih hrest, List.cons_append]

/-- Entries in increasing order of their keys are the dictionary that they make. -/
theorem insertAll_of_sorted {entries : Dictionary α} (h : Sorted entries) :
    insertAll [] entries = entries := by
  suffices ∀ done : Dictionary α, Sorted (done ++ entries) →
      insertAll done entries = done ++ entries from this [] h
  intro done hdone
  induction entries generalizing done with
  | nil => exact (List.append_nil done).symm
  | cons entry rest ih =>
    have hbefore : ∀ other ∈ done, other.1 < entry.1 := fun other hother =>
      (List.pairwise_append.mp hdone).2.2 other hother entry List.mem_cons_self
    have hmoved : done ++ entry :: rest = done ++ [entry] ++ rest := by simp
    have hstep : insertAll done (entry :: rest) = insertAll (done ++ [entry]) rest := by
      change insertAll (done.insert entry.1 entry.2) rest = _
      rw [insert_of_lt hbefore]
    rw [hmoved] at hdone ⊢
    rw [hstep, ih h.of_cons _ hdone]

theorem Sorted.get?_eq_some_iff {dictionary : Dictionary α} (h : Sorted dictionary) {key : String}
    {value : α} : dictionary.get? key = some value ↔ (key, value) ∈ dictionary := by
  induction dictionary with
  | nil => simp [get?]
  | cons entry rest ih =>
    obtain ⟨k, v⟩ := entry
    obtain ⟨hfirst, hrest⟩ := List.pairwise_cons.mp h
    rw [get?_cons, List.mem_cons]
    split
    next heq =>
      subst heq
      have hnot : (key, value) ∉ rest := fun hmem => String.lt_irrefl key (hfirst _ hmem)
      simp [hnot, eq_comm]
    next hne => simp [hne, ih hrest]

/-! ## Values that are set once -/

theorem insertNew_of_none {dictionary : Dictionary α} {key : String}
    (h : dictionary.get? key = none) (value : α) :
    dictionary.insertNew key value = dictionary.insert key value := by
  induction dictionary with
  | nil => rfl
  | cons entry rest ih =>
    obtain ⟨k, v⟩ := entry
    rw [get?_cons] at h
    by_cases heq : key = k
    · simp [heq] at h
    · rw [if_neg heq] at h
      rw [insertNew, insert, if_neg heq, if_neg heq, ih h]

theorem Sorted.insertNew_of_some {dictionary : Dictionary α} (h : Sorted dictionary) {key : String}
    {old : α} (hold : dictionary.get? key = some old) (value : α) :
    dictionary.insertNew key value = dictionary := by
  induction dictionary with
  | nil => cases hold
  | cons entry rest ih =>
    obtain ⟨k, v⟩ := entry
    obtain ⟨hfirst, hrest⟩ := List.pairwise_cons.mp h
    rw [get?_cons] at hold
    by_cases heq : key = k
    · rw [insertNew, if_neg (heq ▸ String.lt_irrefl k), if_pos heq]
    · rw [if_neg heq] at hold
      have hlt : k < key := hfirst _ ((get?_eq_some_iff hrest).mp hold)
      rw [insertNew, if_neg (String.lt_asymm hlt), if_neg heq, ih hrest hold]

theorem Sorted.insertNew {dictionary : Dictionary α} (h : Sorted dictionary) (key : String)
    (value : α) : Sorted (dictionary.insertNew key value) := by
  cases hold : dictionary.get? key with
  | none => exact insertNew_of_none hold value ▸ h.insert key value
  | some old => exact (h.insertNew_of_some hold value).symm ▸ h

theorem Sorted.get?_insertNew {dictionary : Dictionary α} (h : Sorted dictionary)
    (key other : String) (value : α) :
    (dictionary.insertNew key value).get? other
      = (dictionary.get? other).or (if key = other then some value else none) := by
  cases hold : dictionary.get? key with
  | none =>
    rw [insertNew_of_none hold, get?_insert]
    by_cases heq : key = other
    · simp [← heq, hold]
    · simp [heq, Ne.symm heq]
  | some old =>
    rw [h.insertNew_of_some hold]
    by_cases heq : key = other
    · simp [← heq, hold]
    · simp [heq]

section Run

variable (key : α → String)

theorem Sorted.foldl_insertNew {dictionary : Dictionary α} (h : Sorted dictionary)
    (values : List α) :
    Sorted (values.foldl (fun d value => d.insertNew (key value) value) dictionary) := by
  induction values generalizing dictionary with
  | nil => exact h
  | cons value rest ih => exact ih (h.insertNew (key value) value)

/-- Of the values for a key that has none yet, the first is set. -/
theorem Sorted.get?_foldl_insertNew {dictionary : Dictionary α} (h : Sorted dictionary)
    (values : List α) (k : String) :
    (values.foldl (fun d value => d.insertNew (key value) value) dictionary).get? k
      = (dictionary.get? k).or (values.find? fun value => key value == k) := by
  induction values generalizing dictionary with
  | nil => simp
  | cons value rest ih =>
    rw [List.foldl_cons, ih (h.insertNew _ _), h.get?_insertNew, Option.or_assoc, List.find?_cons]
    by_cases heq : key value = k
    · simp [heq]
    · simp [heq, beq_eq_false_iff_ne.mpr heq]

end Run

end SdkEvidence.Dictionary
