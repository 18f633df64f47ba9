import SdkEvidence.Package.SplitName
import SdkEvidence.Proofs.Text.Search
import SdkEvidence.Proofs.Text.Spelling

/-!
# The grammar of sub-package names

The search for a qualified rest of a folded name finds exactly the names that can be taken apart
into a start, the mark, a qualifier and the end of a package name (`isConfiguration_iff`), however
many marks stand in them. A role is told by this, by the end of the name in lower case, and by the
architectures that are spelled in it (`role?_grammar`).
-/
namespace SdkEvidence.SplitName

open Text

/-- A name taken apart as that of a configuration split: the mark starts it or follows a dot or an
underscore, and the qualifier has no slashes. -/
structure Splits (name start mark qualifier tail : List Char) : Prop where
  parts : name = start ++ (mark ++ qualifier ++ tail)
  boundary : start = [] ∨ start.getLast? = some '.' ∨ start.getLast? = some '_'
  marked : Spells "config.".toList mark
  qualified : qualifier ≠ [] ∧ '/' ∉ qualifier ∧ '\\' ∉ qualifier
  ended : Spells ".apk".toList tail

/-- Whether a name can be taken apart as that of a configuration split. -/
def IsSplit (name : List Char) : Prop :=
  ∃ start mark qualifier tail, Splits name start mark qualifier tail

/-- Whether a word is spelled somewhere in a name. -/
def Spelled (word name : List Char) : Prop :=
  ∃ before found after, name = before ++ found ++ after ∧ Spells word found

/-! ## Folded names -/

theorem isQualified_iff (text : List Nat) :
    isQualified text = true ↔ ∃ qualifier,
      text = folded "config.".toList ++ qualifier ++ folded packageEnd ∧ qualifier ≠ [] ∧
      '/'.toNat ∉ qualifier ∧ '\\'.toNat ∉ qualifier := by
  unfold isQualified
  simp only [Bool.and_eq_true, List.isPrefixOf_iff_prefix, List.isSuffixOf_iff_suffix,
    Bool.not_eq_true', List.isEmpty_eq_false_iff, List.contains_eq_mem, decide_eq_false_iff_not,
    and_assoc]
  constructor
  · rintro ⟨⟨rest, rfl⟩, htail, hqualifier⟩
    rw [List.drop_left] at htail hqualifier
    obtain ⟨qualifier, rfl⟩ := htail
    rw [List.length_append, Nat.add_sub_cancel, List.take_left] at hqualifier
    exact ⟨qualifier, (List.append_assoc _ _ _).symm, hqualifier⟩
  · rintro ⟨qualifier, rfl, hqualifier⟩
    rw [List.append_assoc, List.drop_left, List.length_append, Nat.add_sub_cancel, List.take_left]
    exact ⟨List.prefix_append _ _, List.suffix_append _ _, hqualifier⟩

/-- Whether a mark may stand after a folded character. -/
def isBoundary (n : Nat) : Bool :=
  n == '.'.toNat || n == '_'.toNat

theorem hasQualified_cons (atStart : Bool) (n : Nat) (rest : List Nat) :
    hasQualified atStart (n :: rest)
      = ((atStart && isQualified (n :: rest)) || hasQualified (isBoundary n) rest) := rfl

/-- The search finds a qualified rest at any place where a mark may stand. -/
theorem hasQualified_iff (atStart : Bool) (text : List Nat) :
    hasQualified atStart text = true ↔ ∃ before rest, text = before ++ rest ∧
      before.getLast?.elim atStart isBoundary = true ∧ isQualified rest = true := by
  induction text generalizing atStart with
  | nil =>
    have hnil : isQualified [] = false := by decide
    simp [hasQualified, hnil]
  | cons n rest ih =>
    rw [hasQualified_cons, Bool.or_eq_true, Bool.and_eq_true, ih]
    constructor
    · rintro (⟨hstart, hqualified⟩ | ⟨before, later, rfl, hboundary, hqualified⟩)
      · exact ⟨[], n :: rest, rfl, hstart, hqualified⟩
      · refine ⟨n :: before, later, rfl, ?_, hqualified⟩
        rw [List.getLast?_cons]
        cases hlast : before.getLast? <;> simpa [hlast] using hboundary
    · rintro ⟨before, later, htext, hboundary, hqualified⟩
      cases before with
      | nil => exact Or.inl ⟨hboundary, by rwa [htext]⟩
      | cons first before =>
        obtain ⟨rfl, rfl⟩ := List.cons.inj htext
        refine Or.inr ⟨before, later, rfl, ?_, hqualified⟩
        rw [List.getLast?_cons] at hboundary
        cases hlast : before.getLast? <;> simpa [hlast] using hboundary

theorem mentions_iff_isInfix {needle text : List Nat} :
    mentions needle text = true ↔ needle <:+: text := by
  induction text with
  | nil => simp [mentions]
  | cons n rest ih => simp [mentions, List.infix_cons_iff, ih]

/-! ## Names -/

theorem boundary_iff (start : List Char) :
    (folded start).getLast?.elim true isBoundary = true
      ↔ start = [] ∨ start.getLast? = some '.' ∨ start.getLast? = some '_' := by
  rw [← getLast?_folded_iff (t := '.') (by decide) (by decide),
    ← getLast?_folded_iff (t := '_') (by decide) (by decide), folded,
    ← List.map_eq_nil_iff (f := fold), ← List.getLast?_eq_none_iff]
  cases (start.map fold).getLast? with
  | none => simp
  | some n => simp [isBoundary]

theorem isConfiguration_iff (name : String) :
    isConfiguration name = true ↔ IsSplit name.toList := by
  have hmark := folded_eq_iff (show "config.".toList.Forall IsFolded by decide)
  have htail := folded_eq_iff (show packageEnd.Forall IsFolded by decide)
  have hslash := mem_folded_iff (t := '/') (by decide) (by decide)
  have hbackslash := mem_folded_iff (t := '\\') (by decide) (by decide)
  rw [isConfiguration, hasQualified_iff]
  simp only [isQualified_iff]
  constructor
  · rintro ⟨before, rest, htext, hboundary, middle, rfl, hne, hfree, hfree'⟩
    obtain ⟨start, rest, hname, rfl, hrest⟩ := List.map_eq_append_iff.mp htext
    obtain ⟨front, tail, rfl, hfront, hended⟩ := List.map_eq_append_iff.mp hrest
    obtain ⟨mark, qualifier, rfl, hmarked, rfl⟩ := List.map_eq_append_iff.mp hfront
    exact ⟨start, mark, qualifier, tail, hname, (boundary_iff start).mp hboundary,
      (hmark mark).mp hmarked,
      ⟨fun hnil => hne (hnil ▸ rfl), (hslash qualifier).not.mp hfree,
        (hbackslash qualifier).not.mp hfree'⟩, (htail tail).mp hended⟩
  · rintro ⟨start, mark, qualifier, tail, hname, hboundary, hmarked, ⟨hne, hfree, hfree'⟩, hended⟩
    refine ⟨folded start, folded (mark ++ qualifier ++ tail), ?_,
      (boundary_iff start).mpr hboundary, folded qualifier, ?_, ?_, ?_, ?_⟩
    · rw [hname, folded, folded, folded, List.map_append]
    · rw [← (hmark mark).mpr hmarked, ← (htail tail).mpr hended]
      simp only [folded, List.map_append]
    · simpa [folded] using hne
    · exact (hslash qualifier).not.mpr hfree
    · exact (hbackslash qualifier).not.mpr hfree'

theorem mentions_iff {word : List Char} (hword : word.Forall IsFolded) (name : List Char) :
    mentions (folded word) (folded name) = true ↔ Spelled word name := by
  rw [mentions_iff_isInfix]
  constructor
  · rintro ⟨before, after, htext⟩
    obtain ⟨front, after, rfl, hfront, rfl⟩ := List.map_eq_append_iff.mp htext.symm
    obtain ⟨before, found, rfl, rfl, hfound⟩ := List.map_eq_append_iff.mp hfront
    exact ⟨before, found, after, rfl, (folded_eq_iff hword found).mp hfound⟩
  · rintro ⟨before, found, after, rfl, hfound⟩
    refine ⟨folded before, folded after, ?_⟩
    rw [← (folded_eq_iff hword found).mpr hfound, folded, folded, folded, folded, List.map_append,
      List.map_append]

theorem hasArchitecture_iff (name : String) :
    hasArchitecture name = true ↔ ∃ word ∈ architectures, Spelled word.toList name.toList := by
  have hwords : architectures.Forall fun word => word.toList.Forall IsFolded := by decide
  rw [hasArchitecture, List.any_eq_true]
  refine exists_congr fun word => and_congr_right fun hword => ?_
  exact mentions_iff (List.forall_iff_forall_mem.mp hwords word hword) name.toList

theorem Spelled.of_infix {word longer name : List Char} (h : word <:+: longer)
    (hspelled : Spelled longer name) : Spelled word name := by
  obtain ⟨front, back, hlonger⟩ := h
  obtain ⟨before, found, after, rfl, hfound⟩ := hspelled
  rw [Spells, ← hlonger] at hfound
  obtain ⟨front', back', rfl, hfront, hback⟩ := List.map_eq_append_iff.mp hfound
  obtain ⟨front', middle, rfl, -, hmiddle⟩ := List.map_eq_append_iff.mp hfront
  exact ⟨before ++ front', middle, back' ++ after, by simp, hmiddle⟩

/-- The end of a package name tells a package, in lower case or spelled in any case. -/
theorem isPackage_iff (name : String) :
    isPackage name = true ↔ ∃ front tail, name.toList = front ++ tail ∧ Spells ".apk".toList tail :=
  endsWith_lower_iff_spells (by decide) (by decide) name.toList

theorem IsSplit.isPackage {name : String} (h : IsSplit name.toList) : isPackage name = true := by
  obtain ⟨start, mark, qualifier, tail, hsplits⟩ := h
  refine (isPackage_iff name).mpr ⟨start ++ (mark ++ qualifier), tail, ?_, hsplits.ended⟩
  simp [hsplits.parts]

theorem role?_of_isSplit {name : String} (h : IsSplit name.toList) :
    role? name = some (if hasArchitecture name then .architecture else .configuration) := by
  rw [role?, h.isPackage, (isConfiguration_iff name).mpr h]
  cases hasArchitecture name <;> rfl

theorem role?_of_not_isSplit {name : String} (h : ¬IsSplit name.toList) :
    role? name = if isPackage name then some .base else none := by
  have hconfiguration : isConfiguration name = false := by
    rw [← Bool.not_eq_true, isConfiguration_iff]
    exact h
  rw [role?, hconfiguration]
  cases isPackage name <;> rfl

/-- The longer names of architectures contain the shorter ones. -/
theorem spelled_longer_iff (name : List Char) :
    (∃ word ∈ ["arm64-v8a", "arm64_v8a", "armeabi-v7a", "armeabi_v7a", "armeabi", "x86-64",
        "x86_64", "x86", "mips64", "mips"], Spelled word.toList name)
      ↔ ∃ word ∈ architectures, Spelled word.toList name := by
  constructor
  · rintro ⟨longer, hlonger, hspelled⟩
    have hshorter : ["arm64-v8a", "arm64_v8a", "armeabi-v7a", "armeabi_v7a", "armeabi", "x86-64",
        "x86_64", "x86", "mips64", "mips"].Forall fun longer =>
          ∃ word ∈ architectures, contains word.toList longer.toList = true := by
      decide
    obtain ⟨word, hword, hcontains⟩ := List.forall_iff_forall_mem.mp hshorter longer hlonger
    exact ⟨word, hword, hspelled.of_infix (contains_iff_isInfix.mp hcontains)⟩
  · rintro ⟨word, hword, hspelled⟩
    have hlisted : architectures ⊆ ["arm64-v8a", "arm64_v8a", "armeabi-v7a", "armeabi_v7a",
        "armeabi", "x86-64", "x86_64", "x86", "mips64", "mips"] := by
      decide
    exact ⟨word, hlisted hword, hspelled⟩

/-- The role of a sub-package by its name. A name is that of a package exactly if its lower-case
form ends so, which is to say that it spells the end in any case. It is that of a configuration
split exactly if it can be taken apart so in some way, and of these the architecture splits are
those where an architecture is spelled; longer names of architectures change nothing. All other
packages are bases. -/
theorem role?_grammar (name : String) :
    (role? name = none ↔ ¬".apk".toList <:+ lower name.toList) ∧
    (".apk".toList <:+ lower name.toList
      ↔ ∃ front tail, name.toList = front ++ tail ∧ Spells ".apk".toList tail) ∧
    (role? name = some .architecture ∨ role? name = some .configuration ↔ IsSplit name.toList) ∧
    (role? name = some .architecture ↔ IsSplit name.toList ∧
      ∃ word ∈ ["arm64-v8a", "arm64_v8a", "armeabi", "x86", "mips"],
        Spelled word.toList name.toList) ∧
    ((∃ word ∈ ["arm64-v8a", "arm64_v8a", "armeabi-v7a", "armeabi_v7a", "armeabi", "x86-64",
          "x86_64", "x86", "mips64", "mips"], Spelled word.toList name.toList)
      ↔ ∃ word ∈ ["arm64-v8a", "arm64_v8a", "armeabi", "x86", "mips"],
          Spelled word.toList name.toList) ∧
    (role? name = some .base ↔ ".apk".toList <:+ lower name.toList ∧ ¬IsSplit name.toList) := by
  have hpackage : isPackage name = true ↔ ".apk".toList <:+ lower name.toList :=
    List.isSuffixOf_iff_suffix
  by_cases hsplit : IsSplit name.toList
  · have hrole := role?_of_isSplit hsplit
    refine ⟨iff_of_false ?_ (not_not.mpr (hpackage.mp hsplit.isPackage)),
      hpackage.symm.trans (isPackage_iff name), iff_of_true ?_ hsplit, ?_, spelled_longer_iff _,
      iff_of_false ?_ fun h => h.2 hsplit⟩
    · simp [hrole]
    · cases harchitecture : hasArchitecture name <;> simp [hrole, harchitecture]
    · rw [hrole, and_iff_right hsplit]
      refine Iff.trans ?_ (hasArchitecture_iff name)
      cases hasArchitecture name <;> simp
    · cases harchitecture : hasArchitecture name <;> simp [hrole, harchitecture]
  · have hrole := role?_of_not_isSplit hsplit
    refine ⟨?_, hpackage.symm.trans (isPackage_iff name), iff_of_false ?_ hsplit,
      iff_of_false ?_ fun h => hsplit h.1, spelled_longer_iff _, ?_⟩
    · rw [hrole, ← hpackage]
      cases isPackage name <;> simp
    · cases hends : isPackage name <;> simp [hrole, hends]
    · cases hends : isPackage name <;> simp [hrole, hends]
    · rw [hrole, and_iff_left hsplit, ← hpackage]
      cases isPackage name <;> simp

/-- One mark in its place is enough, whatever stands around it. -/
example : role? "aconfig.b_config.de.apk" = some .configuration := by decide +kernel

/-- A mark within a word makes no configuration split. -/
example : role? "aconfig.x86.apk" = some .base := by decide +kernel

end SdkEvidence.SplitName
