import Mathlib.Algebra.BigOperators.Group.List.Lemmas
import SdkEvidence.Metadata.Extract
import SdkEvidence.Proofs.Dictionary
import SdkEvidence.Proofs.Evidence.CodeSearch
import SdkEvidence.Proofs.FileSystem.Extension
import SdkEvidence.Proofs.Tree.Positions

/-!
# The class files of packages

Counting names finds each as often as it is listed (`counted_count`), so the packages have all class
files between them, and the order of the files does not matter (`count_eq_of_perm`). A file that
moves from one code directory to another stays in its package (`isClassOf_moved`), so the packages
are the same wherever their files are (`collect_packages`).
-/
namespace SdkEvidence

/-! ## Counting names -/

namespace Dictionary

/-- Dictionaries in order are told by their entries. -/
theorem Sorted.eq_of_mem_iff {α : Type} {a b : Dictionary α} (ha : Sorted a) (hb : Sorted b)
    (hmem : ∀ entry, entry ∈ a ↔ entry ∈ b) : a = b := by
  have : Std.Irrefl fun x y : String × α => x.1 < y.1 := ⟨fun x => String.lt_irrefl x.1⟩
  have : Std.Antisymm fun x y : String × α => x.1 < y.1 :=
    ⟨fun _ _ hxy hyx => absurd hyx (String.lt_asymm hxy)⟩
  exact List.Pairwise.eq_of_mem_iff ha hb hmem

end Dictionary

namespace CodePackage

/-- A dictionary has the names of a list, each with the number of times that it is listed. -/
structure Counted (names : List String) (counts : Dictionary Nat) : Prop where
  sorted : counts.Sorted
  mem_iff : ∀ name n, (name, n) ∈ counts ↔ 0 < n ∧ n = names.count name

theorem Counted.get? {names : List String} {counts : Dictionary Nat} (h : Counted names counts)
    (name : String) : (counts.get? name).getD 0 = names.count name := by
  cases hget : counts.get? name with
  | some n => exact ((h.mem_iff name n).mp (h.sorted.get?_eq_some_iff.mp hget)).2
  | none =>
    by_contra hne
    have hmem := (h.mem_iff name _).mpr ⟨Nat.pos_of_ne_zero (Ne.symm hne), rfl⟩
    rw [← h.sorted.get?_eq_some_iff, hget] at hmem
    cases hmem

/-- One more name is counted once more. -/
theorem Counted.insert {names : List String} {counts : Dictionary Nat} (h : Counted names counts)
    (name : String) :
    Counted (names ++ [name]) (counts.insert name (((counts.get? name).getD 0) + 1)) where
  sorted := h.sorted.insert name _
  mem_iff other n := by
    rw [← (h.sorted.insert name _).get?_eq_some_iff, Dictionary.get?_insert, h.get?,
      List.count_append, List.count_singleton]
    by_cases heq : other = name
    · subst heq
      simp only [if_true, Option.some_inj, beq_self_eq_true]
      omega
    · simp only [if_neg heq, h.sorted.get?_eq_some_iff, h.mem_iff, beq_iff_eq,
        if_neg (Ne.symm heq), Nat.add_zero]

theorem counted_count (names : List String) : Counted names (count names) := by
  induction names using List.reverseRecOn with
  | nil => exact ⟨List.Pairwise.nil, by simp [count]; omega⟩
  | append_singleton names name ih =>
    rw [count, List.foldl_append]
    exact ih.insert name

theorem count_eq_of_perm {names others : List String} (h : names.Perm others) :
    count names = count others := by
  refine (counted_count names).sorted.eq_of_mem_iff (counted_count others).sorted fun entry => ?_
  rw [(counted_count names).mem_iff, (counted_count others).mem_iff, h.count_eq]

/-- All names are counted. -/
theorem sum_count (names : List String) :
    ((count names).map Prod.snd).sum = names.length := by
  have h := counted_count names
  have hkeys : ((count names).map Prod.fst).Nodup :=
    List.pairwise_map.mpr (h.sorted.imp fun hlt => ne_of_lt hlt)
  have hmem (name : String) : name ∈ (count names).map Prod.fst ↔ name ∈ names.dedup := by
    rw [List.mem_dedup, List.mem_map, ← List.count_pos_iff]
    constructor
    · rintro ⟨⟨_, n⟩, hentry, rfl⟩
      obtain ⟨hpos, rfl⟩ := (h.mem_iff _ n).mp hentry
      exact hpos
    · intro hpos
      exact ⟨(name, _), (h.mem_iff name _).mpr ⟨hpos, rfl⟩, rfl⟩
  have hvalues : (count names).map Prod.snd
      = ((count names).map Prod.fst).map fun name => names.count name := by
    rw [List.map_map]
    exact List.map_congr_left fun entry hentry => ((h.mem_iff _ _).mp hentry).2
  have hperm := (List.perm_ext_iff_of_nodup hkeys names.nodup_dedup).mpr hmem
  rw [hvalues, (hperm.map _).sum_eq, List.sum_map_count_dedup_eq_length]

end CodePackage

/-! ## Class files -/

/-- The package that a way leads through: the second name on it, if more names follow. -/
def Location.package? : Location → Option String
  | _ :: package :: _ :: _ => some package
  | _ => none

namespace CodePackage

open FileSystem PackageIndex

/-- A name ends with an extension of class files, in any case, behind a stem and a dot. -/
def IsClassName (name : String) : Prop :=
  ∃ stem extension, stem ≠ "" ∧ '.' ∉ extension.toList ∧ name = stem ++ "." ++ extension ∧
    Text.lowered extension ∈ ["smali", "java", "kt"]

theorem isClassName_iff {name : String} : IsClassName name
    ↔ classExtensions.contains (Text.lowered (((Path.splitName name).2).getD "")) = true := by
  have hempty : Text.lowered "" ∉ classExtensions := by decide
  rw [List.contains_iff_mem]
  by_cases hup : name = ".."
  · subst hup
    refine iff_of_false ?_ hempty
    rintro ⟨stem, extension, hstem, -, hname, hclass⟩
    have hlength := congrArg String.length hname
    have hpos := Nat.pos_of_ne_zero (String.length_eq_zero_iff.not.mpr hstem)
    simp only [String.length_append] at hlength
    have hdots : "..".length = 2 ∧ ".".length = 1 := by decide
    obtain rfl : extension = "" := String.length_eq_zero_iff.mp (by omega)
    exact hempty hclass
  · constructor
    · rintro ⟨stem, extension, hstem, hdot, hname, hclass⟩
      rw [(Path.splitName_eq_some_iff hup).mpr ⟨hstem, hdot, hname⟩]
      exact hclass
    · intro hclass
      rcases hsplit : Path.splitName name with ⟨stem, _ | extension⟩
      · rw [hsplit] at hclass
        exact absurd hclass hempty
      · obtain ⟨hstem, hdot, hname⟩ := (Path.splitName_eq_some_iff hup).mp hsplit
        rw [hsplit] at hclass
        exact ⟨stem, extension, hstem, hdot, hname, hclass⟩

instance : DecidablePred IsClassName := fun _ => decidable_of_iff _ isClassName_iff.symm

/-- A file is a class file of a package: its way leads through the package to a directory below,
and its name is that of a class. -/
def IsClassOf (package : String) (file : WalkedFile) : Prop :=
  file.way.package? = some package ∧ IsClassName ((file.way.getLast?).getD "")

instance (package : String) : DecidablePred (IsClassOf package) :=
  fun _ => inferInstanceAs (Decidable (_ ∧ _))

/-- A file of an index is found in the package whose class file it is. -/
theorem ofFile?_indexed {root : PathText} {area : Location → TreeArea} {file : WalkedFile}
    {package : String} :
    ofFile? (indexed root area file) = some package ↔ IsClassOf package file := by
  unfold ofFile? IsClassOf
  rcases hway : file.way with _ | ⟨code, _ | ⟨name, _ | ⟨first, more⟩⟩⟩
  all_goals simp only [indexed, hway, Location.package?, reduceCtorEq, false_and]
  rw [Option.ite_none_right_eq_some, ← isClassName_iff, and_comm]
  simp [List.getLast?_eq_some_getLast]

variable {fs : FileSystem} {decompiled : PathText}

/-- The packages of the class files of a tree, file by file. -/
def classPackages (fs : FileSystem) (decompiled : PathText) : List String :=
  (fs.codeFiles decompiled).filterMap fun file => ofFile? (indexed decompiled (fun _ => .code) file)

theorem collect_build (fs : FileSystem) (decompiled raw : PathText) :
    collect (build fs decompiled raw)
      = (count (classPackages fs decompiled)).map fun entry => ⟨entry.1, entry.2⟩ := by
  rw [collect, filesIn_code, List.filterMap_map]
  rfl

theorem count_classPackages (package : String) :
    (classPackages fs decompiled).count package
      = ((fs.codeFiles decompiled).filter (IsClassOf package)).length := by
  rw [classPackages, List.count_filterMap, List.countP_eq_length_filter]
  refine congrArg List.length (List.filter_congr fun file _ => ?_)
  rw [Bool.eq_iff_iff, beq_iff_eq, decide_eq_true_eq, ofFile?_indexed]

/-- A file is a class file of some package. -/
def IsClass (file : WalkedFile) : Prop :=
  file.way.package?.isSome = true ∧ IsClassName ((file.way.getLast?).getD "")

instance : DecidablePred IsClass := fun _ => inferInstanceAs (Decidable (_ ∧ _))

theorem length_classPackages : (classPackages fs decompiled).length
    = ((fs.codeFiles decompiled).filter IsClass).length := by
  rw [classPackages, List.length_filterMap_eq_countP, List.countP_eq_length_filter]
  refine congrArg List.length (List.filter_congr fun file _ => ?_)
  rw [Bool.eq_iff_iff, decide_eq_true_eq, Option.isSome_iff_exists]
  simp only [ofFile?_indexed, IsClassOf, IsClass, Option.isSome_iff_exists, exists_and_right]

/-! ## Files that move -/

/-- A file at the place that it moves to: below another directory at the top, with the same way from
there on. -/
def moved (target : String → Location → String) (file : WalkedFile) : WalkedFile :=
  match file.way with
  | [] => file
  | root :: below => { file with way := target root below :: below }

/-- Code files of a tree move to other code directories: each goes to its place, no two come to one
place, and no other code files come up. -/
structure Moves (fs after : FileSystem) (decompiled : PathText)
    (target : String → Location → String) : Prop where
  arrives : ∀ file ∈ fs.codeFiles decompiled, moved target file ∈ after.codeFiles decompiled
  comes : ∀ file ∈ after.codeFiles decompiled,
    ∃ old ∈ fs.codeFiles decompiled, moved target old = file
  apart : ∀ file ∈ fs.codeFiles decompiled, ∀ other ∈ fs.codeFiles decompiled,
    (moved target file).way = (moved target other).way → file.way = other.way

variable {after : FileSystem} {target : String → Location → String}

theorem content_moved (file : WalkedFile) : (moved target file).content = file.content := by
  unfold moved
  split <;> rfl

/-- A file that moves stays in its package. -/
theorem isClassOf_moved {file : WalkedFile} (hfile : file ∈ fs.codeFiles decompiled)
    {package : String} : IsClassOf package (moved target file) ↔ IsClassOf package file := by
  obtain ⟨way, content⟩ := file
  obtain ⟨root, name, more, rfl, -⟩ := exists_of_mem_codeFiles hfile
  cases more <;> simp [IsClassOf, moved, Location.package?]

theorem nodup_codeFiles (wf : fs.WellFormed) : (fs.codeFiles decompiled).Nodup :=
  (nodup_of_increasing (walkPath_increasing wf decompiled)).filter _

/-- The code files of a tree whose files have moved are those of the tree before, each at its new
place. -/
theorem codeFiles_moved (wf : fs.WellFormed) (wf' : after.WellFormed)
    (hmoves : Moves fs after decompiled target) :
    ((fs.codeFiles decompiled).map (moved target)).Perm (after.codeFiles decompiled) := by
  have hinjective : ∀ file ∈ fs.codeFiles decompiled, ∀ other ∈ fs.codeFiles decompiled,
      moved target file = moved target other → file = other := by
    intro file hfile other hother hsame
    have hway := hmoves.apart file hfile other hother (congrArg WalkedFile.way hsame)
    have hcontent := congrArg WalkedFile.content hsame
    rw [content_moved, content_moved] at hcontent
    cases file
    cases other
    exact congrArg₂ WalkedFile.mk hway hcontent
  refine (List.perm_ext_iff_of_nodup ((nodup_codeFiles wf).map_on hinjective)
    (nodup_codeFiles wf')).mpr fun file => ?_
  rw [List.mem_map]
  constructor
  · rintro ⟨old, hold, rfl⟩
    exact hmoves.arrives old hold
  · exact hmoves.comes file

theorem classPackages_moved (wf : fs.WellFormed) (wf' : after.WellFormed)
    (hmoves : Moves fs after decompiled target) :
    (classPackages fs decompiled).Perm (classPackages after decompiled) := by
  have hperm := (codeFiles_moved wf wf' hmoves).filterMap
    fun file => ofFile? (indexed decompiled (fun _ => .code) file)
  rw [List.filterMap_map] at hperm
  refine (List.Perm.of_eq ?_).trans hperm
  refine List.filterMap_congr fun file hfile => Option.ext fun package => ?_
  rw [Function.comp_apply, ofFile?_indexed, ofFile?_indexed, isClassOf_moved hfile]

/-! ## The packages of an index -/

/-- The packages of an index increase by their names. Each has as many class files as there are in
the code files of the tree, and all packages together have all class files. They stay the same when
code files move between the code directories. -/
theorem collect_packages (fs : FileSystem) (wf : fs.WellFormed) (decompiled raw : PathText) :
    ((collect (build fs decompiled raw)).Pairwise fun a b => a.name < b.name) ∧
    (∀ package, package ∈ collect (build fs decompiled raw) ↔ 0 < package.classFiles ∧
      package.classFiles = ((fs.codeFiles decompiled).filter (IsClassOf package.name)).length) ∧
    ((collect (build fs decompiled raw)).map CodePackage.classFiles).sum
      = ((fs.codeFiles decompiled).filter IsClass).length ∧
    ∀ after target, after.WellFormed → Moves fs after decompiled target →
      collect (build after decompiled raw) = collect (build fs decompiled raw) := by
  have hcounted := counted_count (classPackages fs decompiled)
  refine ⟨?_, fun package => ?_, ?_, ?_⟩
  · rw [collect_build]
    exact List.pairwise_map.mpr hcounted.sorted
  · rw [collect_build, ← count_classPackages, ← hcounted.mem_iff, List.mem_map]
    constructor
    · rintro ⟨entry, hentry, rfl⟩
      exact hentry
    · exact fun hentry => ⟨_, hentry, rfl⟩
  · rw [collect_build, ← length_classPackages, ← sum_count, List.map_map]
    rfl
  · intro after target wf' hmoves
    rw [collect_build, collect_build, count_eq_of_perm (classPackages_moved wf wf' hmoves)]

/-- A tree with class files of one package in two directories, a file at the top of one, and a file
that is no class file. -/
def TwoRoots.files : FileSystem :=
  { nodes :=
      [(["d"], .directory), (["d", "smali"], .directory),
       (["d", "smali", "Top.smali"], .file "".toUTF8 false),
       (["d", "smali", "com"], .directory), (["d", "smali", "com", "A.KT"], .file "a".toUTF8 false),
       (["d", "smali", "com", "B.txt"], .file "b".toUTF8 false),
       (["d", "sources"], .directory), (["d", "sources", "com"], .directory),
       (["d", "sources", "com", "C.java"], .file "c".toUTF8 false)]
    current := []
    temporary := "/" }

/-- The tree after a class file has moved to the other directory. -/
def TwoRoots.filesMoved : FileSystem :=
  { nodes :=
      [(["d"], .directory), (["d", "smali"], .directory),
       (["d", "smali", "Top.smali"], .file "".toUTF8 false),
       (["d", "smali", "com"], .directory),
       (["d", "smali", "com", "B.txt"], .file "b".toUTF8 false),
       (["d", "sources"], .directory), (["d", "sources", "com"], .directory),
       (["d", "sources", "com", "A.KT"], .file "a".toUTF8 false),
       (["d", "sources", "com", "C.java"], .file "c".toUTF8 false)]
    current := []
    temporary := "/" }

/-- Where a file of the tree moves to. -/
def TwoRoots.place (root : String) (below : Location) : String :=
  if below = ["com", "A.KT"] then "sources" else root

theorem collect_packages_moved :
    TwoRoots.files.WellFormed ∧ TwoRoots.filesMoved.WellFormed ∧
    Moves TwoRoots.files TwoRoots.filesMoved "/d" TwoRoots.place ∧
    ⟨"com", 2⟩ ∈ collect (build TwoRoots.files "/d" "/r") ∧
    collect (build TwoRoots.filesMoved "/d" "/r") = collect (build TwoRoots.files "/d" "/r") := by
  have wf : TwoRoots.files.WellFormed := by decide
  have wf' : TwoRoots.filesMoved.WellFormed := by decide
  have hcode (fs : FileSystem) (hfind : fs.find? "/d" = some (["d"], .directory))
      (hsorted : (fs.filesBelow ["d"]).Pairwise fun a b => Location.precedes a.way b.way = true) :
      fs.codeFiles "/d" = (fs.filesBelow ["d"]).filter fun file => Location.isCode file.way := by
    rw [codeFiles, walkPath_of_sorted hfind hsorted]
  have hfiles := hcode TwoRoots.files (by decide) (by decide)
  have hafter := hcode TwoRoots.filesMoved (by decide) (by decide)
  have hmoves : Moves TwoRoots.files TwoRoots.filesMoved "/d" TwoRoots.place := by
    refine ⟨?_, ?_, ?_⟩
    · rw [hfiles, hafter]
      decide
    · rw [hfiles, hafter]
      decide
    · rw [hfiles]
      decide
  obtain ⟨-, hmem, -, hmoved⟩ := collect_packages TwoRoots.files wf "/d" "/r"
  refine ⟨wf, wf', hmoves, (hmem _).mpr ⟨by decide, ?_⟩, hmoved _ _ wf' hmoves⟩
  rw [hfiles]
  decide +kernel

end CodePackage
end SdkEvidence
