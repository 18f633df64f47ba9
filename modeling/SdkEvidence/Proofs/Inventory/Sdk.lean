import SdkEvidence.Inventory.Sdk
import SdkEvidence.Proofs.Dictionary

/-!
# One entry for each SDK

The list of SDKs has the first entry for each name in any case (`mem_aggregate`), where the entries
of stamps come before those of libraries. Libraries without a vendor make no entry
(`aggregate_filter`).
-/
namespace SdkEvidence

/-- The name that a library is listed by. -/
def NativeLibrary.displayName (library : NativeLibrary) : String :=
  library.description.getD library.name

namespace DetectedSdk

/-- What entries are told apart by. -/
def key (sdk : DetectedSdk) : String :=
  Text.lowered sdk.name

/-- The entries of stamps and libraries, in order. -/
def entries (stamps : List VersionStamp) (libraries : List NativeLibrary) : List DetectedSdk :=
  stamps.map ofStamp ++ libraries.filterMap ofLibrary?

/-- The first entries by their keys. -/
def dictionary (stamps : List VersionStamp) (libraries : List NativeLibrary) :
    Dictionary DetectedSdk :=
  (entries stamps libraries).foldl (fun d entry => d.insertNew (key entry) entry) []

variable {stamps : List VersionStamp} {libraries : List NativeLibrary} {sdk : DetectedSdk}

theorem aggregate_eq (stamps : List VersionStamp) (libraries : List NativeLibrary) :
    aggregate stamps libraries = (dictionary stamps libraries).values :=
  rfl

theorem dictionary_sorted (stamps : List VersionStamp) (libraries : List NativeLibrary) :
    (dictionary stamps libraries).Sorted :=
  Dictionary.Sorted.foldl_insertNew key List.Pairwise.nil _

theorem mem_dictionary {k : String} :
    (k, sdk) ∈ dictionary stamps libraries
      ↔ (entries stamps libraries).find? (fun entry => key entry == k) = some sdk := by
  rw [← (dictionary_sorted stamps libraries).get?_eq_some_iff, dictionary,
    Dictionary.Sorted.get?_foldl_insertNew key List.Pairwise.nil]
  simp [Dictionary.get?]

theorem key_of_mem_dictionary {k : String} (h : (k, sdk) ∈ dictionary stamps libraries) :
    key sdk = k := by
  simpa using List.find?_some (mem_dictionary.mp h)

/-- The list has the first entry of each name. -/
theorem mem_aggregate :
    sdk ∈ aggregate stamps libraries
      ↔ (entries stamps libraries).find? (fun entry => key entry == key sdk) = some sdk := by
  rw [aggregate_eq, Dictionary.values, ← mem_dictionary]
  constructor
  · intro hmem
    obtain ⟨⟨k, value⟩, hentry, rfl⟩ := List.mem_map.mp hmem
    rwa [key_of_mem_dictionary hentry]
  · exact fun hmem => List.mem_map_of_mem hmem

theorem aggregate_increasing (stamps : List VersionStamp) (libraries : List NativeLibrary) :
    (aggregate stamps libraries).Pairwise fun a b => key a < key b := by
  refine List.pairwise_map.mpr ((dictionary_sorted stamps libraries).imp_of_mem ?_)
  rintro ⟨k, a⟩ ⟨k', b⟩ ha hb hlt
  rw [key_of_mem_dictionary ha, key_of_mem_dictionary hb]
  exact hlt

theorem exists_key_aggregate_iff {k : String} :
    (∃ sdk ∈ aggregate stamps libraries, key sdk = k)
      ↔ ∃ entry ∈ entries stamps libraries, key entry = k := by
  constructor
  · rintro ⟨sdk, hsdk, rfl⟩
    exact ⟨sdk, List.mem_of_find?_eq_some (mem_aggregate.mp hsdk), rfl⟩
  · rintro ⟨entry, hentry, rfl⟩
    have hsome : ((entries stamps libraries).find? fun other => key other == key entry).isSome :=
      List.find?_isSome.mpr ⟨entry, hentry, beq_self_eq_true _⟩
    obtain ⟨first, hfirst⟩ := Option.isSome_iff_exists.mp hsome
    have hkey : key first = key entry := by simpa using List.find?_some hfirst
    exact ⟨first, mem_aggregate.mpr (hkey ▸ hfirst), hkey⟩

/-! ## Where an entry comes from -/

theorem ofLibrary?_eq_some_iff {library : NativeLibrary} :
    ofLibrary? library = some sdk ↔ ∃ vendor, library.vendor = some vendor ∧
      sdk = { name := library.displayName, version := library.version
              vendor := some vendor, source := .nativeLibrary } := by
  rw [ofLibrary?, Option.map_eq_some_iff]
  exact exists_congr fun vendor => and_congr_right fun _ => eq_comm

theorem any_ofLibrary? (library : NativeLibrary) (k : String) :
    (ofLibrary? library).any (fun entry => key entry == k) = true
      ↔ library.vendor ≠ none ∧ Text.lowered library.displayName = k := by
  cases hvendor : library.vendor <;>
    simp [ofLibrary?, hvendor, key, NativeLibrary.displayName]

theorem exists_key_entries_iff {k : String} :
    (∃ entry ∈ entries stamps libraries, key entry = k)
      ↔ (∃ stamp ∈ stamps, Text.lowered stamp.library = k) ∨
        ∃ library ∈ libraries, library.vendor ≠ none ∧
          Text.lowered library.displayName = k := by
  constructor
  · rintro ⟨entry, hentry, hkey⟩
    rcases List.mem_append.mp hentry with hentry | hentry
    · obtain ⟨stamp, hstamp, rfl⟩ := List.mem_map.mp hentry
      exact Or.inl ⟨stamp, hstamp, hkey⟩
    · obtain ⟨library, hlibrary, hof⟩ := List.mem_filterMap.mp hentry
      refine Or.inr ⟨library, hlibrary, (any_ofLibrary? library k).mp ?_⟩
      simp [hof, hkey]
  · rintro (⟨stamp, hstamp, hkey⟩ | ⟨library, hlibrary, hnamed⟩)
    · exact ⟨ofStamp stamp, List.mem_append_left _ (List.mem_map_of_mem hstamp), hkey⟩
    · rw [← any_ofLibrary?, Option.any_eq_true] at hnamed
      obtain ⟨entry, hof, hkey⟩ := hnamed
      have hentry : entry ∈ libraries.filterMap ofLibrary? :=
        List.mem_filterMap.mpr ⟨library, hlibrary, hof⟩
      exact ⟨entry, List.mem_append_right _ hentry, beq_iff_eq.mp hkey⟩

/-- An entry is that of the first stamp with its key. If there is none, it is that of the first
library with a vendor and this key. -/
inductive IsFirst (stamps : List VersionStamp) (libraries : List NativeLibrary) (k : String) :
    DetectedSdk → Prop
  | stamp (before : List VersionStamp) (stamp : VersionStamp) (after : List VersionStamp)
      (place : stamps = before ++ stamp :: after)
      (named : Text.lowered stamp.library = k)
      (first : ∀ other ∈ before, Text.lowered other.library ≠ k) :
      IsFirst stamps libraries k
        { name := stamp.library, version := some stamp.version, vendor := none
          source := .versionStamp }
  | library (before : List NativeLibrary) (library : NativeLibrary) (after : List NativeLibrary)
      (vendor : String)
      (unstamped : ∀ stamp ∈ stamps, Text.lowered stamp.library ≠ k)
      (place : libraries = before ++ library :: after)
      (known : library.vendor = some vendor)
      (named : Text.lowered library.displayName = k)
      (first : ∀ other ∈ before, other.vendor ≠ none → Text.lowered other.displayName ≠ k) :
      IsFirst stamps libraries k
        { name := library.displayName, version := library.version, vendor := some vendor
          source := .nativeLibrary }

theorem isFirst_of_find? {k : String}
    (h : (entries stamps libraries).find? (fun entry => key entry == k) = some sdk) :
    IsFirst stamps libraries k sdk := by
  rw [entries, List.find?_append, Option.or_eq_some_iff] at h
  rcases h with hstamped | ⟨hunstamped, hlisted⟩
  · rw [List.find?_map, Option.map_eq_some_iff] at hstamped
    obtain ⟨stamp, hstamp, rfl⟩ := hstamped
    obtain ⟨hnamed, before, after, hplace, hfirst⟩ := List.find?_eq_some_iff_append.mp hstamp
    refine .stamp before stamp after hplace (beq_iff_eq.mp hnamed) fun other hother hkey => ?_
    simpa [key, ofStamp, hkey] using hfirst other hother
  · rw [List.find?_filterMap, Option.bind_eq_some_iff] at hlisted
    obtain ⟨library, hlibrary, hof⟩ := hlisted
    obtain ⟨hnamed, before, after, hplace, hfirst⟩ := List.find?_eq_some_iff_append.mp hlibrary
    obtain ⟨vendor, hvendor, rfl⟩ := ofLibrary?_eq_some_iff.mp hof
    refine .library before library after vendor (fun stamp hstamp hkey => ?_) hplace hvendor
      ((any_ofLibrary? library k).mp hnamed).2 fun other hother hknown hkey => ?_
    · have hother := List.find?_eq_none.mp hunstamped _ (List.mem_map_of_mem hstamp)
      simp [key, ofStamp, hkey] at hother
    · have hother := hfirst other hother
      rw [(any_ofLibrary? other k).mpr ⟨hknown, hkey⟩] at hother
      cases hother

theorem filterMap_ofLibrary?_filter (libraries : List NativeLibrary) :
    (libraries.filter fun library => library.vendor.isSome).filterMap ofLibrary?
      = libraries.filterMap ofLibrary? := by
  rw [List.filterMap_filter]
  refine List.filterMap_congr fun library _ => ?_
  cases hvendor : library.vendor <;> simp [ofLibrary?, hvendor]

/-- Libraries without a vendor count for nothing. -/
theorem aggregate_filter (stamps : List VersionStamp) (libraries : List NativeLibrary) :
    aggregate stamps (libraries.filter fun library => library.vendor.isSome)
      = aggregate stamps libraries := by
  rw [aggregate_eq, aggregate_eq, dictionary, dictionary, entries, entries,
    filterMap_ofLibrary?_filter]

/-- The list of SDKs has one entry for each name of a stamp or of a library with a vendor, taken in
any case, in the order of these names. A stamp comes before all libraries, and what comes first
counts. -/
theorem aggregate_first (stamps : List VersionStamp) (libraries : List NativeLibrary) :
    ((aggregate stamps libraries).Pairwise fun a b =>
      Text.lowered a.name < Text.lowered b.name) ∧
    (∀ k, (∃ sdk ∈ aggregate stamps libraries, Text.lowered sdk.name = k)
      ↔ (∃ stamp ∈ stamps, Text.lowered stamp.library = k) ∨
        ∃ library ∈ libraries, library.vendor ≠ none ∧
          Text.lowered library.displayName = k) ∧
    (∀ sdk ∈ aggregate stamps libraries,
      IsFirst stamps libraries (Text.lowered sdk.name) sdk) ∧
    aggregate stamps (libraries.filter fun library => library.vendor.isSome)
      = aggregate stamps libraries :=
  ⟨aggregate_increasing stamps libraries,
    fun _ => exists_key_aggregate_iff.trans exists_key_entries_iff,
    fun _ hsdk => isFirst_of_find? (mem_aggregate.mp hsdk), aggregate_filter stamps libraries⟩

/-- Names are ordered without regard to case, and a library of a name that is stamped is left. -/
example :
    (aggregate [{ library := "Zebra", version := "3" }, { library := "core", version := "1" }]
      [{ name := "libx.so", architecture := "x86", path := "lib/x86/libx.so", size := 1
         description := some "CORE", vendor := some "X", version := none }]).map DetectedSdk.name
      = ["core", "Zebra"] := by decide

end DetectedSdk
end SdkEvidence
