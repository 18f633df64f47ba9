import SdkEvidence.Proofs.Analysis.Trees
import SdkEvidence.Proofs.Inventory.NativeLibrary
import SdkEvidence.Proofs.Report.Rows

/-!
# Libraries by architecture

The inventory layout looks at no library but the last one, and puts a heading where the architecture
changes. So libraries that come architecture by architecture make one group for each
(`groupedLibraries_flatMap`). A report on trees has its libraries in such an order, and so each
architecture has one heading with its libraries below it (`analyzeTrees_library_groups`).
-/
namespace SdkEvidence

namespace NativeLibrary

/-- The libraries of an architecture, in the order of the list. -/
def ofArchitecture (libraries : List NativeLibrary) (architecture : String) :
    List NativeLibrary :=
  libraries.filter fun library => library.architecture == architecture

/-- The architectures of libraries, each once and in order, with the empty one of libraries that
have none. -/
def distinctArchitectures (libraries : List NativeLibrary) : List String :=
  sortedDistinct (libraries.map NativeLibrary.architecture)

variable {libraries : List NativeLibrary} {library : NativeLibrary} {architecture : String}

theorem mem_ofArchitecture :
    library ∈ ofArchitecture libraries architecture
      ↔ library ∈ libraries ∧ library.architecture = architecture := by
  rw [ofArchitecture, List.mem_filter, beq_iff_eq]

theorem mem_distinctArchitectures :
    architecture ∈ distinctArchitectures libraries
      ↔ ∃ library ∈ libraries, library.architecture = architecture := by
  rw [distinctArchitectures, mem_sortedDistinct, List.mem_map]

theorem distinctArchitectures_increasing (libraries : List NativeLibrary) :
    (distinctArchitectures libraries).Pairwise (· < ·) :=
  sortedDistinct_increasing _

/-- The architectures that are told are those that are not empty. -/
theorem architectures_eq_filter (libraries : List NativeLibrary) :
    architectures libraries = (distinctArchitectures libraries).filter fun a => a != "" := by
  refine List.Pairwise.eq_of_mem_iff (architectures_increasing libraries)
    ((distinctArchitectures_increasing libraries).sublist List.filter_sublist) fun a => ?_
  rw [mem_architectures, List.mem_filter, mem_distinctArchitectures, bne_iff_ne, and_comm]

/-- Libraries in strict order come architecture by architecture. -/
theorem flatMap_ofArchitecture (h : libraries.Pairwise fun a b => key a < key b) :
    (distinctArchitectures libraries).flatMap (ofArchitecture libraries) = libraries := by
  have : Std.Antisymm fun a b : NativeLibrary => key a < key b :=
    ⟨fun _ _ hab hba => absurd hba (lt_asymm hab)⟩
  have : Std.Irrefl fun a b : NativeLibrary => key a < key b := ⟨fun _ => lt_irrefl _⟩
  refine List.Pairwise.eq_of_mem_iff (List.pairwise_flatMap.mpr ⟨fun a _ => ?_, ?_⟩) h
    fun library => ?_
  · exact h.sublist List.filter_sublist
  · refine (distinctArchitectures_increasing libraries).imp fun hlt a ha b hb => ?_
    rw [← (mem_ofArchitecture.mp ha).2, ← (mem_ofArchitecture.mp hb).2] at hlt
    exact Prod.Lex.toLex_lt_toLex.mpr (Or.inl hlt)
  · simp only [List.mem_flatMap, mem_distinctArchitectures, mem_ofArchitecture]
    constructor
    · rintro ⟨architecture, -, hmem, -⟩
      exact hmem
    · exact fun hmem => ⟨library.architecture, ⟨library, hmem, rfl⟩, hmem, rfl⟩

theorem mem_collect {fs : FileSystem} {decompiled raw : PathText} (wf : fs.WellFormed)
    (database : LibraryDatabase) :
    library ∈ collect database (.build fs decompiled raw)
      ↔ ∃ file ∈ (PackageIndex.build fs decompiled raw).filesIn .nativeLibrary,
          ofFile database file = library := by
  rw [collect_eq wf, List.mem_mergeSort, List.mem_map]

/-- Within an architecture libraries are in the order of names, then of paths. -/
theorem ofArchitecture_increasing (h : libraries.Pairwise fun a b => key a < key b)
    (architecture : String) :
    (ofArchitecture libraries architecture).Pairwise fun a b =>
      toLex (a.name, a.path) < toLex (b.name, b.path) := by
  refine (h.sublist List.filter_sublist).imp_of_mem fun ha hb hlt => ?_
  have hsame := (mem_ofArchitecture.mp ha).2.trans (mem_ofArchitecture.mp hb).2.symm
  rcases Prod.Lex.toLex_lt_toLex.mp hlt with harchitecture | ⟨-, hrest⟩
  · exact absurd hsame harchitecture.ne
  · exact hrest

end NativeLibrary

namespace Layout

open NativeLibrary

/-! ## Groups of rows -/

/-- The heading of a group. -/
def architectureHeading (architecture : String) : String :=
  "  [" ++ (if architecture = "" then "(no ABI directory)" else architecture) ++ "]"

/-- The rows of a group: an empty one, its heading and the rows of its libraries. -/
def groupRows (architecture : String) (libraries : List NativeLibrary) : List String :=
  ["", architectureHeading architecture] ++ libraries.flatMap libraryRows

/-- Libraries of the last architecture need no heading. -/
theorem groupedLibraries_append_same {architecture : String} {group : List NativeLibrary}
    (hgroup : ∀ library ∈ group, library.architecture = architecture)
    (rest : List NativeLibrary) :
    groupedLibraries (some architecture) (group ++ rest)
      = group.flatMap libraryRows ++ groupedLibraries (some architecture) rest := by
  induction group with
  | nil => rfl
  | cons library group ih =>
    obtain ⟨hlibrary, hgroup⟩ := List.forall_mem_cons.mp hgroup
    rw [List.cons_append, groupedLibraries, hlibrary, if_pos rfl, ih hgroup, List.flatMap_cons,
      List.nil_append, List.append_assoc]

/-- Where the next library has another architecture, the last one does not matter. -/
theorem groupedLibraries_of_change {architecture : String} {rest : List NativeLibrary}
    (h : ∀ library ∈ rest.head?, library.architecture ≠ architecture) :
    groupedLibraries (some architecture) rest = groupedLibraries none rest := by
  cases rest with
  | nil => rfl
  | cons library rest =>
    have hother : some architecture ≠ some library.architecture := fun heq =>
      h library rfl (Option.some.inj heq).symm
    rw [groupedLibraries, groupedLibraries, if_neg hother, if_neg (Option.some_ne_none _).symm]

/-- Libraries of one architecture make a group, if the next library has another one. -/
theorem groupedLibraries_append {architecture : String} {group rest : List NativeLibrary}
    (hne : group ≠ []) (hgroup : ∀ library ∈ group, library.architecture = architecture)
    (hrest : ∀ library ∈ rest.head?, library.architecture ≠ architecture) :
    groupedLibraries none (group ++ rest)
      = groupRows architecture group ++ groupedLibraries none rest := by
  obtain ⟨first, more, rfl⟩ := List.exists_cons_of_ne_nil hne
  obtain ⟨hfirst, hmore⟩ := List.forall_mem_cons.mp hgroup
  rw [List.cons_append, groupedLibraries, if_neg (Option.some_ne_none _).symm, hfirst,
    groupedLibraries_append_same hmore, groupedLibraries_of_change hrest, groupRows,
    List.flatMap_cons]
  simp only [architectureRows, architectureHeading, List.append_assoc]

/-- Libraries that come architecture by architecture make one group for each. -/
theorem groupedLibraries_flatMap {values : List String} {group : String → List NativeLibrary}
    (hvalues : values.Nodup) (hne : ∀ value ∈ values, group value ≠ [])
    (hgroup : ∀ value ∈ values, ∀ library ∈ group value, library.architecture = value) :
    groupedLibraries none (values.flatMap group)
      = values.flatMap fun value => groupRows value (group value) := by
  induction values with
  | nil => rfl
  | cons value values ih =>
    obtain ⟨hvalue, hvalues⟩ := List.nodup_cons.mp hvalues
    obtain ⟨hfirst, hne⟩ := List.forall_mem_cons.mp hne
    obtain ⟨hown, hgroup⟩ := List.forall_mem_cons.mp hgroup
    have hnext : ∀ library ∈ (values.flatMap group).head?, library.architecture ≠ value := by
      intro library hlibrary
      obtain ⟨other, hother, hmem⟩ := List.mem_flatMap.mp (List.mem_of_mem_head? hlibrary)
      rw [hgroup other hother library hmem]
      rintro rfl
      exact hvalue hother
    rw [List.flatMap_cons, groupedLibraries_append hfirst hown hnext, ih hvalues hne hgroup,
      List.flatMap_cons]

/-- Libraries in strict order make one group for each of their architectures. -/
theorem groupedLibraries_eq {libraries : List NativeLibrary}
    (h : libraries.Pairwise fun a b => key a < key b) :
    groupedLibraries none libraries = (distinctArchitectures libraries).flatMap fun value =>
      groupRows value (ofArchitecture libraries value) := by
  have hvalues : (distinctArchitectures libraries).Nodup :=
    (distinctArchitectures_increasing libraries).imp fun hlt => hlt.ne
  have hne : ∀ value ∈ distinctArchitectures libraries, ofArchitecture libraries value ≠ [] := by
    intro value hvalue
    obtain ⟨library, hlibrary, heq⟩ := mem_distinctArchitectures.mp hvalue
    exact List.ne_nil_of_mem (mem_ofArchitecture.mpr ⟨hlibrary, heq⟩)
  have hgroups := groupedLibraries_flatMap hvalues hne fun value _ library hlibrary =>
    (mem_ofArchitecture.mp hlibrary).2
  rwa [flatMap_ofArchitecture h] at hgroups

/-! ## Headings among the rows -/

/-- Whether a row starts as the heading of a group. -/
def isGroupHeading (row : String) : Bool :=
  "  [".toList.isPrefixOf row.toList

theorem isGroupHeading_of_differ {front : List Char} (h : differ "  [".toList front = true)
    {row : String} {back : List Char} (hrow : row.toList = front ++ back) :
    isGroupHeading row = false := by
  rw [Bool.eq_false_iff, isGroupHeading, ne_eq, List.isPrefixOf_iff_prefix, hrow]
  exact not_prefix_of_differ h back

theorem isGroupHeading_architectureHeading (architecture : String) :
    isGroupHeading (architectureHeading architecture) = true := by
  rw [isGroupHeading, List.isPrefixOf_iff_prefix, architectureHeading, String.append_assoc,
    String.toList_append]
  exact List.prefix_append _ _

theorem filter_libraryRows (library : NativeLibrary) :
    (libraryRows library).filter isGroupHeading = [] := by
  have hname (back : String) : isGroupHeading ("    " ++ back) = false :=
    isGroupHeading_of_differ (by decide)
      (show _ = "    ".toList ++ back.toList from String.toList_append)
  have hdetails (back : String) : isGroupHeading ("      " ++ back) = false :=
    isGroupHeading_of_differ (by decide)
      (show _ = "      ".toList ++ back.toList from String.toList_append)
  rw [libraryRows, String.append_assoc, String.append_assoc, List.filter_cons, hname]
  split
  next hnone => cases hnone
  next =>
    split
    next => rfl
    next => simp [hdetails]

theorem filter_groupRows (architecture : String) (libraries : List NativeLibrary) :
    (groupRows architecture libraries).filter isGroupHeading
      = [architectureHeading architecture] := by
  have hempty : isGroupHeading "" = false := by decide
  rw [groupRows, List.filter_append, List.filter_flatMap,
    List.flatMap_eq_nil_iff.mpr fun library _ => filter_libraryRows library]
  simp [hempty, isGroupHeading_architectureHeading]

theorem isGroupHeading_number (n : Nat) (back : String) :
    isGroupHeading ("  " ++ toString n ++ back) = false := by
  obtain ⟨d, more, hrow, hd⟩ := exists_toList_number n back
  have hbracket : '[' ≠ d := (Decimal.ne_of_isDigit hd (by decide)).symm
  refine isGroupHeading_of_differ ?_ hrow
  simp [differ, hbracket]

theorem isGroupHeading_libraryCount (report : Report) :
    isGroupHeading ("  " ++ libraryCount report) = false := by
  rw [libraryCount]
  split
  next => decide
  next =>
    simp only [String.append_assoc]
    rw [← String.append_assoc]
    exact isGroupHeading_number _ _

/-! ## The section of a report -/

/-- The section on native libraries has one group for each architecture, in order: a single heading
and the libraries of the architecture below it, by name and path. So there are as many headings as
architectures, and each library is printed in one group. The number of all libraries and the
architectures that are not empty stand before the groups. -/
structure GroupsLibraries (report : Report) : Prop where
  rows : nativeLibraries report
    = heading "NATIVE LIBRARIES" ++ ["  " ++ libraryCount report]
      ++ (distinctArchitectures report.libraries).flatMap fun architecture =>
          groupRows architecture (ofArchitecture report.libraries architecture)
  architectures : ∀ architecture, architecture ∈ distinctArchitectures report.libraries
    ↔ ∃ library ∈ report.libraries, library.architecture = architecture
  increasing : (distinctArchitectures report.libraries).Pairwise (· < ·)
  ordered : ∀ architecture, (ofArchitecture report.libraries architecture).Pairwise
    fun a b => toLex (a.name, a.path) < toLex (b.name, b.path)
  headings : (nativeLibraries report).filter isGroupHeading
    = (distinctArchitectures report.libraries).map architectureHeading
  distinct : report.libraries.Nodup
  once : (distinctArchitectures report.libraries).flatMap (ofArchitecture report.libraries)
    = report.libraries
  countNone : report.libraries = [] → libraryCount report = "0 native libraries found."
  count : report.libraries ≠ [] → libraryCount report
    = toString report.libraries.length ++ " native librar"
      ++ (if report.libraries.length = 1 then "y" else "ies") ++ " across "
      ++ toString ((distinctArchitectures report.libraries).filter fun a => a != "").length
      ++ " architecture(s): "
      ++ ", ".intercalate ((distinctArchitectures report.libraries).filter fun a => a != "")

theorem groupsLibraries {report : Report}
    (hlibraries : report.libraries.Pairwise fun a b => key a < key b)
    (harchitectures : report.architectures = NativeLibrary.architectures report.libraries) :
    GroupsLibraries report where
  rows := by rw [nativeLibraries, groupedLibraries_eq hlibraries]
  architectures _ := mem_distinctArchitectures
  increasing := distinctArchitectures_increasing _
  ordered := ofArchitecture_increasing hlibraries
  headings := by
    have hheading : (heading "NATIVE LIBRARIES").filter isGroupHeading = [] := by decide
    have hcount : ["  " ++ libraryCount report].filter isGroupHeading = [] := by
      simp [isGroupHeading_libraryCount]
    rw [nativeLibraries, groupedLibraries_eq hlibraries, List.filter_append, List.filter_append,
      hheading, hcount, List.filter_flatMap]
    simp only [filter_groupRows]
    exact List.flatMap_pure_eq_map _ _
  distinct := hlibraries.imp fun hlt heq => hlt.ne (congrArg key heq)
  once := flatMap_ofArchitecture hlibraries
  countNone h := by rw [libraryCount, h, List.length_nil, if_pos rfl]
  count h := by
    rw [libraryCount, if_neg (List.length_eq_zero_iff.not.mpr h), harchitectures,
      architectures_eq_filter]

theorem text_append (rows more : List String) : text (rows ++ more) = text rows ++ text more := by
  simp [text]

theorem exists_text_inventory (report : Report) :
    ∃ front back, text (inventory report)
      = text front ++ text (nativeLibraries report) ++ text back := by
  refine ⟨title "ANDROID SDK INVENTORY REPORT" ++ application report ++ sdks report
      ++ competitors report, codePackages report ++ dependencies report ++ permissions report
      ++ features report ++ buildInfo report ++ contents report ++ technicalDetails report, ?_⟩
  rw [← text_append, ← text_append, inventory]
  simp only [List.append_assoc]

end Layout

namespace Analyzer

open NativeLibrary Layout

theorem eq_report_of_runIn_analyzeTrees {a : Analyzer} {mode : Mode} {decompiled raw : PathText}
    {fs after : FileSystem} {report : Report}
    (h : (a.analyzeTrees mode decompiled raw).runIn fs = (.ok report, after)) :
    report = a.report mode decompiled a.decompiler.name none none
      (Findings.ofTrees fs a.configuration mode decompiled raw) := by
  cases hdir : fs.isDirectory decompiled with
  | true =>
    rw [runIn_analyzeTrees hdir] at h
    cases h
    rfl
  | false =>
    rw [analyzeTrees, Action.runIn_bind, runIn_examine, hdir] at h
    cases h

end Analyzer
end SdkEvidence
