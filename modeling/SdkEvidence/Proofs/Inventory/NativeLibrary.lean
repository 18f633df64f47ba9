import Mathlib.Data.Prod.Lex
import SdkEvidence.Inventory.NativeLibrary
import SdkEvidence.Proofs.Repetition
import SdkEvidence.Proofs.Tree.Positions

/-!
# The inventory of native libraries

The order of libraries is the lexicographic one of their architecture, name and path (`le_iff`). The
paths of an area are different, so that no library repeats another and the inventory is the sorted
list of them all (`collect_eq`). So there is one for every file of the area, with what its way and
the database tell (`collect_inventory`).
-/
namespace SdkEvidence.NativeLibrary

open FileSystem PackageIndex

/-! ## The order -/

/-- What libraries are ordered by. -/
def key (library : NativeLibrary) : String ×ₗ String ×ₗ String :=
  toLex (library.architecture, toLex (library.name, library.path))

theorem le_iff (a b : NativeLibrary) : le a b = true ↔ key a ≤ key b := by
  unfold le key
  rw [Prod.Lex.toLex_le_toLex', Prod.Lex.toLex_le_toLex']
  by_cases harchitecture : a.architecture = b.architecture
  · by_cases hname : a.name = b.name <;> simp [harchitecture, hname]
  · simp [harchitecture]

theorem path_eq_of_key_eq {a b : NativeLibrary} (h : key a = key b) : a.path = b.path :=
  congrArg (fun parts => (ofLex (ofLex parts).2).2) h

theorem mergeSort_paths {libraries : List NativeLibrary}
    (hpaths : (libraries.map NativeLibrary.path).Nodup) :
    (libraries.mergeSort le).Pairwise fun a b => a.path ≠ b.path :=
  List.pairwise_map.mp (((List.mergeSort_perm libraries le).map _).nodup_iff.mpr hpaths)

/-- Libraries with different paths are in strict order once they are sorted. -/
theorem mergeSort_increasing {libraries : List NativeLibrary}
    (hpaths : (libraries.map NativeLibrary.path).Nodup) :
    (libraries.mergeSort le).Pairwise fun a b => key a < key b := by
  have hsorted : (libraries.mergeSort le).Pairwise fun a b => le a b = true := by
    refine List.pairwise_mergeSort (fun a b c hab hbc => ?_) (fun a b => ?_) libraries
    · rw [le_iff] at hab hbc ⊢
      exact hab.trans hbc
    · rw [Bool.or_eq_true, le_iff, le_iff]
      exact le_total _ _
  refine hsorted.imp₂ (fun a b hle hpath => ?_) (mergeSort_paths hpaths)
  exact lt_of_le_of_ne ((le_iff a b).mp hle) fun hkey => hpath (path_eq_of_key_eq hkey)

/-- Sorted libraries with different paths have no repetition to take out. -/
theorem mergeSort_eraseRepsBy {libraries : List NativeLibrary}
    (hpaths : (libraries.map NativeLibrary.path).Nodup) :
    ((libraries.mergeSort le).eraseRepsBy fun a b => a.name == b.name && a.path == b.path)
      = libraries.mergeSort le :=
  eraseRepsBy_of_pairwise _ ((mergeSort_paths hpaths).imp fun hpath => by simp [hpath])

/-! ## One library for each file -/

/-- A library is a file below the library directory. The directory that it is in there is its
architecture, and the database tells the rest by its name. -/
structure Describes (database : LibraryDatabase) (file : IndexedFile) (library : NativeLibrary) :
    Prop where
  name : file.way.getLast? = some library.name
  path : library.path = "/".intercalate file.way
  size : library.size = file.content.size
  architecture :
    (file.way = [TreeArea.libraryDirectory, library.name] ∧ library.architecture = "") ∨
      ∃ below, below ≠ [] ∧
        file.way = TreeArea.libraryDirectory :: library.architecture :: below
  known : ∀ row, database.lookup library.name = some row →
    library.description = row.description ∧ library.vendor = row.vendor ∧
      library.version = row.version
  unknown : database.lookup library.name = none →
    library.description = none ∧ library.vendor = none ∧ library.version = none

variable {fs : FileSystem} {decompiled raw : PathText}

theorem way_of_mem_filesIn {file : IndexedFile}
    (hfile : file ∈ (build fs decompiled raw).filesIn .nativeLibrary) :
    ∃ name more, file.way = TreeArea.libraryDirectory :: name :: more := by
  have hshipped : TreeArea.ofRaw file.way = .nativeLibrary := by
    rcases claims_of_mem_filesIn (by decide) hfile with hraw | ⟨rawHasMetadata, hdecompiled⟩
    · exact hraw
    · exact absurd hdecompiled (TreeArea.ofDecompiled_ne rfl (Or.inl (by decide)) _)
  obtain ⟨hplace, hne⟩ := (TreeArea.ofRaw_eq_iff rfl file.way).mp hshipped
  obtain ⟨below, hway⟩ := hplace
  cases below with
  | nil => exact absurd hway.symm hne
  | cons name more => exact ⟨name, more, hway.symm⟩

theorem describes_ofFile (database : LibraryDatabase) {file : IndexedFile}
    (hfile : file ∈ (build fs decompiled raw).filesIn .nativeLibrary) :
    Describes database file (ofFile database file) := by
  obtain ⟨first, more, hway⟩ := way_of_mem_filesIn hfile
  have hname : file.way.getLast? = some file.name := name_of_mem_filesIn (by decide) hfile
  refine ⟨hname, rfl, rfl, ?_, fun row hrow => ?_, fun hnone => ?_⟩
  · cases more with
    | nil =>
      rw [hway, List.getLast?_cons_cons, List.getLast?_singleton, Option.some_inj] at hname
      subst hname
      exact Or.inl ⟨hway, by simp [ofFile, hway, architectureOf]⟩
    | cons second more =>
      refine Or.inr ⟨second :: more, List.cons_ne_nil _ _, ?_⟩
      rw [ofFile, hway, architectureOf]
  · have hrow : database.lookup file.name = some row := hrow
    simp [ofFile, hrow]
  · have hnone : database.lookup file.name = none := hnone
    simp [ofFile, hnone]

theorem paths_nodup (wf : fs.WellFormed) (database : LibraryDatabase) :
    ((((build fs decompiled raw).filesIn .nativeLibrary).map (ofFile database)).map
      NativeLibrary.path).Nodup := by
  rw [List.map_map]
  exact relatives_nodup_filesIn wf (by decide)

/-- The libraries are sorted, and none is taken out. -/
theorem collect_eq (wf : fs.WellFormed) (database : LibraryDatabase) :
    collect database (build fs decompiled raw)
      = (((build fs decompiled raw).filesIn .nativeLibrary).map (ofFile database)).mergeSort le :=
  mergeSort_eraseRepsBy (paths_nodup wf database)

/-! ## The architectures -/

theorem architectures_increasing (libraries : List NativeLibrary) :
    (architectures libraries).Pairwise (· < ·) :=
  sortedDistinct_increasing _

theorem mem_architectures {libraries : List NativeLibrary} {architecture : String} :
    architecture ∈ architectures libraries
      ↔ architecture ≠ "" ∧ ∃ library ∈ libraries, library.architecture = architecture := by
  simp [architectures, mem_sortedDistinct, and_comm]

/-! ## The inventory -/

/-- The libraries are those of the files, one for each, in strict order and without a repetition. -/
structure Inventories (database : LibraryDatabase) (files : List IndexedFile)
    (libraries : List NativeLibrary) : Prop where
  complete : ∃ listed : List IndexedFile, listed.Perm files ∧
    List.Forall₂ (Describes database) listed libraries
  once : (libraries.map fun library => (library.name, library.path)).Nodup
  increasing : libraries.Pairwise fun a b => key a < key b

theorem inventories_collect (wf : fs.WellFormed) (database : LibraryDatabase) :
    Inventories database ((build fs decompiled raw).filesIn .nativeLibrary)
      (collect database (build fs decompiled raw)) := by
  rw [collect_eq wf]
  refine ⟨?_, ?_, mergeSort_increasing (paths_nodup wf database)⟩
  · -- The files in the order of their libraries.
    refine ⟨((build fs decompiled raw).filesIn .nativeLibrary).mergeSort fun a b =>
      le (ofFile database a) (ofFile database b), List.mergeSort_perm _ _, ?_⟩
    rw [← List.map_mergeSort (f := ofFile database) fun _ _ _ _ => rfl,
      List.forall₂_map_right_iff, List.forall₂_same]
    exact fun file hfile => describes_ofFile database (List.mem_mergeSort.mp hfile)
  · refine List.pairwise_map.mpr ((mergeSort_paths (paths_nodup wf database)).imp ?_)
    exact fun hpath heq => hpath (congrArg Prod.snd heq)

/-- Libraries at three depths, and files of the same names that are no libraries. -/
def Shelved.files : FileSystem :=
  { nodes :=
      [(["d"], .directory), (["d", "lib"], .directory),
       (["d", "lib", "libx.so"], .file "0".toUTF8 false),
       (["r"], .directory), (["r", "libx.so"], .file "1".toUTF8 false),
       (["r", "lib"], .directory), (["r", "lib", "libx.so"], .file "22".toUTF8 false),
       (["r", "lib", "x86"], .directory),
       (["r", "lib", "x86", "libx.so"], .file "333".toUTF8 false),
       (["r", "lib", "x86", "more"], .directory),
       (["r", "lib", "x86", "more", "libx.so"], .file "4444".toUTF8 false)]
    current := []
    temporary := "/" }

/-- A database that knows the libraries. -/
def Shelved.database : LibraryDatabase :=
  { rows := [{ name := "LibX", description := none, vendor := some "X", version := some "1" }] }

end SdkEvidence.NativeLibrary
