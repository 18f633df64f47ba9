import Mathlib.Data.Bool.AllAny
import Mathlib.Data.List.TakeWhile
import SdkEvidence.Metadata.Locale
import SdkEvidence.Proofs.FileSystem.Walk
import SdkEvidence.Proofs.Repetition
import SdkEvidence.Proofs.Text.Search

/-!
# Directories for locales

The search for a locale tries a language, a region behind it, and then a tag. It finds the locale of
a name exactly where the name is one of the grammar (`ofDirectory?_eq_some_iff`): a region is part
of the locale if the name can go on behind it, and otherwise belongs to the qualifiers that follow.
So the locales of a tree are those that its resource directories are named for
(`collect_qualifiers`).
-/
namespace SdkEvidence.Locale

/-! ## The grammar of names -/

/-- Nothing follows, or a hyphen and further qualifiers. -/
def GoesOn (rest : List Char) : Prop :=
  rest = [] ∨ ∃ more, more ≠ [] ∧ rest = '-' :: more

/-- Two or three small letters. -/
structure IsLanguage (language : List Char) : Prop where
  size : language.length = 2 ∨ language.length = 3
  small : ∀ c ∈ language, 'a' ≤ c ∧ c ≤ 'z'

/-- A hyphen, an `r` and two capital letters. -/
def IsRegion (region : List Char) : Prop :=
  ∃ a b : Char, region = ['-', 'r', a, b] ∧ ('A' ≤ a ∧ a ≤ 'Z') ∧ 'A' ≤ b ∧ b ≤ 'Z'

/-- A letter, a digit or a plus. -/
def IsTagLetter (c : Char) : Prop :=
  ('a' ≤ c ∧ c ≤ 'z') ∨ ('A' ≤ c ∧ c ≤ 'Z') ∨ ('0' ≤ c ∧ c ≤ '9') ∨ c = '+'

/-- The mark of tags and one or more letters, digits and pluses. -/
def IsTag (tag : List Char) : Prop :=
  ∃ letters, letters ≠ [] ∧ (∀ c ∈ letters, IsTagLetter c) ∧ tag = 'b' :: '+' :: letters

/-- A locale with what follows it in a name. A language takes the region that stands behind it,
unless the name cannot go on behind that. -/
inductive Stands : List Char → List Char → Prop where
  | language {language rest : List Char} (isLanguage : IsLanguage language)
      (noRegion : ∀ region more, IsRegion region → rest = region ++ more → ¬GoesOn more) :
      Stands language rest
  | region {language region rest : List Char} (isLanguage : IsLanguage language)
      (isRegion : IsRegion region) : Stands (language ++ region) rest
  | tag {tag rest : List Char} (isTag : IsTag tag) : Stands tag rest

/-- A directory is named for a locale, and perhaps for further qualifiers, which hold no line
feed. -/
def NamedFor (name locale : String) : Prop :=
  ∃ rest, name.toList = "values-".toList ++ locale.toList ++ rest ∧ GoesOn rest ∧ '\n' ∉ rest ∧
    Stands locale.toList rest

/-! ## Characters -/

theorem isSmall_iff {c : Char} : isSmall c = true ↔ 'a' ≤ c ∧ c ≤ 'z' := by
  simp [isSmall]

theorem isCapital_iff {c : Char} : isCapital c = true ↔ 'A' ≤ c ∧ c ≤ 'Z' := by
  simp [isCapital]

theorem isTagChar_iff {c : Char} : isTagChar c = true ↔ IsTagLetter c := by
  have hdigit : c.isDigit = true ↔ '0' ≤ c ∧ c ≤ '9' := by
    simp [Char.isDigit, Char.le_def]
  simp [isTagChar, IsTagLetter, isSmall_iff, isCapital_iff, hdigit, or_assoc]

/-! ## The parts of a name -/

theorem atEnd_iff {rest : List Char} : atEnd rest = true ↔ GoesOn rest ∧ '\n' ∉ rest := by
  unfold atEnd
  split
  next => simp [GoesOn]
  next more => simp [GoesOn]
  next hnil hhyphen =>
    refine iff_of_false (by simp) ?_
    rintro ⟨rfl | ⟨more, -, rfl⟩, -⟩
    · exact hnil rfl
    · exact hhyphen more rfl

theorem region?_eq_some_iff {text region : List Char} : region? text = some region ↔
    ∃ more, text = region ++ more ∧ IsRegion region ∧ atEnd more = true := by
  unfold region?
  split
  next a b rest =>
    rw [Option.ite_none_right_eq_some, Option.some_inj, Bool.and_eq_true, Bool.and_eq_true,
      isCapital_iff, isCapital_iff]
    constructor
    · rintro ⟨⟨⟨ha, hb⟩, hend⟩, rfl⟩
      exact ⟨rest, rfl, ⟨a, b, rfl, ha, hb⟩, hend⟩
    · rintro ⟨more, htext, ⟨a', b', rfl, ha, hb⟩, hend⟩
      simp only [List.cons_append, List.nil_append, List.cons.injEq, true_and] at htext
      obtain ⟨rfl, rfl, rfl⟩ := htext
      exact ⟨⟨⟨ha, hb⟩, hend⟩, rfl⟩
  next hother =>
    refine iff_of_false (by simp) ?_
    rintro ⟨more, rfl, ⟨a, b, rfl, -⟩, -⟩
    exact hother a b more rfl

/-- The letters at the start of a text, where a language stands there that no letter follows. -/
theorem letters_eq {language rest : List Char} (h : IsLanguage language)
    (hrest : ∀ c ∈ rest.head?, isSmall c = false) :
    ((language ++ rest).take 3).takeWhile isSmall = language := by
  have hsmall : ∀ c ∈ language, isSmall c = true := fun c hc => isSmall_iff.mpr (h.small c hc)
  have hsize : language.length ≤ 3 := by rcases h.size with hsize | hsize <;> omega
  rw [List.take_append, List.take_of_length_le hsize, List.takeWhile_append_of_pos hsmall,
    List.append_right_eq_self]
  cases hnext : rest.take (3 - language.length) with
  | nil => rfl
  | cons c more =>
    refine List.takeWhile_cons_of_neg ?_
    have hhead : c ∈ rest.head? := by
      cases rest with
      | nil => simp at hnext
      | cons d rest =>
        cases hleft : 3 - language.length <;> simp_all
    simp [hrest c hhead]

theorem isLanguage_letters {text : List Char}
    (h : ¬((text.take 3).takeWhile isSmall).length < 2) :
    IsLanguage ((text.take 3).takeWhile isSmall) where
  size := by
    have hle := (List.takeWhile_prefix isSmall (l := text.take 3)).length_le
    have htake := List.length_take_le 3 text
    omega
  small := fun _ hc => isSmall_iff.mp (List.mem_takeWhile_imp hc)

/-- Where a name can go on, no small letter stands. -/
theorem GoesOn.head? {rest : List Char} (h : GoesOn rest) :
    ∀ c ∈ rest.head?, isSmall c = false := by
  rcases h with rfl | ⟨more, -, rfl⟩
  · simp
  · rintro c hc
    obtain rfl : '-' = c := by simpa using hc
    decide

theorem IsRegion.head? {region : List Char} (h : IsRegion region) (more : List Char) :
    ∀ c ∈ (region ++ more).head?, isSmall c = false := by
  obtain ⟨a, b, rfl, -⟩ := h
  rintro c hc
  obtain rfl : '-' = c := by simpa using hc
  decide

/-- A language is found at the start of a text, with its region or before an end. -/
theorem language?_eq_some_iff {text locale : List Char} : language? text = some locale ↔
    ∃ language rest, IsLanguage language ∧ text = language ++ rest ∧
      ((∃ region, region? rest = some region ∧ locale = language ++ region) ∨
        region? rest = none ∧ atEnd rest = true ∧ locale = language) := by
  constructor
  · intro hfound
    rw [language?] at hfound
    generalize hletters : (text.take 3).takeWhile isSmall = letters at hfound
    split at hfound
    next => cases hfound
    next hsize =>
      have htext : text = letters ++ text.drop letters.length := by
        have hprefix : letters <+: text := hletters ▸
          (List.takeWhile_prefix isSmall).trans (List.take_prefix 3 text)
        obtain ⟨rest, rfl⟩ := hprefix
        rw [List.drop_left]
      refine ⟨letters, _, hletters ▸ isLanguage_letters (hletters ▸ hsize), htext, ?_⟩
      split at hfound
      next region hregion => exact Or.inl ⟨region, hregion, (Option.some_inj.mp hfound).symm⟩
      next hregion =>
        rw [Option.ite_none_right_eq_some, Option.some_inj] at hfound
        exact Or.inr ⟨hregion, hfound.1, hfound.2.symm⟩
  · rintro ⟨language, rest, hlanguage, rfl, hfollows⟩
    have hrest : ∀ c ∈ rest.head?, isSmall c = false := by
      rcases hfollows with ⟨region, hregion, -⟩ | ⟨-, hend, -⟩
      · obtain ⟨more, rfl, hregion, -⟩ := region?_eq_some_iff.mp hregion
        exact hregion.head? more
      · exact (atEnd_iff.mp hend).1.head?
    have hsize : ¬language.length < 2 := by rcases hlanguage.size with hsize | hsize <;> omega
    rw [language?, letters_eq hlanguage hrest, List.drop_left]
    rcases hfollows with ⟨region, hregion, rfl⟩ | ⟨hregion, hend, rfl⟩
    · simp [hsize, hregion]
    · simp [hsize, hregion, hend]

theorem region?_eq_none_iff {rest : List Char} (hrest : '\n' ∉ rest) : region? rest = none ↔
    ∀ region more, IsRegion region → rest = region ++ more → ¬GoesOn more := by
  rw [Option.eq_none_iff_forall_ne_some]
  constructor
  · rintro hnone region more hregion rfl hmore
    exact hnone region (region?_eq_some_iff.mpr
      ⟨more, rfl, hregion, atEnd_iff.mpr ⟨hmore, fun hmem => hrest (by simp [hmem])⟩⟩)
  · intro hnone region hfound
    obtain ⟨more, hparts, hregion, hend⟩ := region?_eq_some_iff.mp hfound
    exact hnone region more hregion hparts (atEnd_iff.mp hend).1

theorem tag?_eq_some_iff {text locale : List Char} : tag? text = some locale ↔
    ∃ rest, text = locale ++ rest ∧ IsTag locale ∧ atEnd rest = true := by
  unfold tag?
  split
  next following =>
    constructor
    · intro hfound
      have hletters : ∀ c ∈ following.takeWhile isTagChar, IsTagLetter c := fun c hc =>
        isTagChar_iff.mp (List.mem_takeWhile_imp hc)
      obtain ⟨rest, hrest⟩ := List.takeWhile_prefix isTagChar (l := following)
      generalize following.takeWhile isTagChar = letters at hfound hletters hrest
      subst hrest
      dsimp only at hfound
      rw [List.drop_left, Option.ite_none_right_eq_some, Option.some_inj, Bool.and_eq_true,
        Bool.not_eq_true', List.isEmpty_eq_false_iff] at hfound
      obtain ⟨⟨hfilled, hend⟩, rfl⟩ := hfound
      exact ⟨rest, rfl, ⟨letters, hfilled, hletters, rfl⟩, hend⟩
    · rintro ⟨rest, htext, ⟨letters, hfilled, hletters, rfl⟩, hend⟩
      obtain rfl : following = letters ++ rest := by simpa using htext
      have hall : ∀ c ∈ letters, isTagChar c = true := fun c hc =>
        isTagChar_iff.mpr (hletters c hc)
      have hstop : rest.takeWhile isTagChar = [] := by
        rcases (atEnd_iff.mp hend).1 with rfl | ⟨more, -, rfl⟩
        · rfl
        · exact List.takeWhile_cons_of_neg (by decide)
      simp [List.takeWhile_append_of_pos hall, hstop, hfilled, hend]
  next hother =>
    refine iff_of_false (by simp) ?_
    rintro ⟨rest, rfl, ⟨letters, -, -, rfl⟩, -⟩
    exact hother _ rfl

/-- No tag starts with a language. -/
theorem language?_of_isTag {tag : List Char} (h : IsTag tag) (rest : List Char) :
    language? (tag ++ rest) = none := by
  obtain ⟨letters, -, -, rfl⟩ := h
  cases letters <;> rfl

/-! ## Names -/

theorem stands_iff {text locale : List Char} :
    ((language? text).orElse fun _ => tag? text) = some locale ↔
      ∃ rest, text = locale ++ rest ∧ GoesOn rest ∧ '\n' ∉ rest ∧ Stands locale rest := by
  change (language? text <|> tag? text) = some locale ↔ _
  rw [Option.orElse_eq_some, language?_eq_some_iff, tag?_eq_some_iff]
  constructor
  · rintro (⟨language, rest, hlanguage, rfl, ⟨region, hregion, rfl⟩ | ⟨hregion, hend, rfl⟩⟩ |
      ⟨-, rest, rfl, htag, hend⟩)
    · obtain ⟨more, rfl, hregion, hend⟩ := region?_eq_some_iff.mp hregion
      obtain ⟨hgoes, hbreak⟩ := atEnd_iff.mp hend
      exact ⟨more, (List.append_assoc _ _ _).symm, hgoes, hbreak, .region hlanguage hregion⟩
    · obtain ⟨hgoes, hbreak⟩ := atEnd_iff.mp hend
      exact ⟨rest, rfl, hgoes, hbreak,
        .language hlanguage ((region?_eq_none_iff hbreak).mp hregion)⟩
    · obtain ⟨hgoes, hbreak⟩ := atEnd_iff.mp hend
      exact ⟨rest, rfl, hgoes, hbreak, .tag htag⟩
  · rintro ⟨rest, rfl, hgoes, hbreak, hstands⟩
    have hend : atEnd rest = true := atEnd_iff.mpr ⟨hgoes, hbreak⟩
    cases hstands with
    | language hlanguage hregion =>
      exact Or.inl ⟨_, rest, hlanguage, rfl,
        Or.inr ⟨(region?_eq_none_iff hbreak).mpr hregion, hend, rfl⟩⟩
    | @region language region _ hlanguage hregion =>
      exact Or.inl ⟨language, region ++ rest, hlanguage, List.append_assoc _ _ _,
        Or.inl ⟨region, region?_eq_some_iff.mpr ⟨rest, rfl, hregion, hend⟩, rfl⟩⟩
    | tag htag => exact Or.inr ⟨language?_of_isTag htag rest, rest, rfl, htag, hend⟩

/-- A directory is for the locale that it is named for, unless that only looks like one. -/
theorem ofDirectory?_eq_some_iff {name locale : String} :
    ofDirectory? name = some locale ↔ locale ≠ "car" ∧ NamedFor name locale := by
  simp only [ofDirectory?, Option.bind_eq_bind, Option.bind_eq_some_iff, Text.dropLead?_eq_some_iff,
    stands_iff, NamedFor]
  constructor
  · rintro ⟨text, htext, found, ⟨rest, rfl, hgoes, hbreak, hstands⟩, hlocale⟩
    rw [Option.ite_none_left_eq_some, Option.some_inj] at hlocale
    obtain ⟨hlocale, rfl⟩ := hlocale
    refine ⟨by simpa [notLocales] using hlocale, rest, ?_, hgoes, hbreak, ?_⟩
    · simp [htext]
    · rwa [String.toList_ofList]
  · rintro ⟨hlocale, rest, htext, hgoes, hbreak, hstands⟩
    refine ⟨locale.toList ++ rest, by rw [htext, List.append_assoc], locale.toList,
      ⟨rest, rfl, hgoes, hbreak, hstands⟩, ?_⟩
    simp [notLocales, hlocale]

/-! ## Trees -/

/-- The locales of a decompiled tree are those that the directories in its resource directory are
named for, each once and in order. Files and directories with other names have no part in it. -/
theorem collect_qualifiers (fs : FileSystem) (wf : fs.WellFormed) (decompiled : PathText) :
    (collect fs decompiled).Pairwise (· < ·) ∧
    ∀ locale, locale ∈ collect fs decompiled ↔ locale ≠ "car" ∧
      ∃ resources name, fs.directory? (Path.join decompiled "res") = some resources ∧
        fs.get? (resources ++ [name]) = some .directory ∧ NamedFor name locale := by
  refine ⟨sortedDistinct_increasing _, fun locale => ?_⟩
  rw [collect, mem_sortedDistinct, List.mem_filterMap]
  constructor
  · rintro ⟨⟨name, node⟩, hentry, hlocale⟩
    rw [Option.ite_none_right_eq_some, ofDirectory?_eq_some_iff] at hlocale
    obtain ⟨rfl, hcar, hnamed⟩ := hlocale
    rw [FileSystem.entriesAt] at hentry
    split at hentry
    next resources hresources =>
      exact ⟨hcar, resources, name, hresources, (FileSystem.mem_entries wf).mp hentry, hnamed⟩
    next => cases hentry
  · rintro ⟨hcar, resources, name, hresources, hdirectory, hnamed⟩
    refine ⟨(name, .directory), ?_, ?_⟩
    · have hresources : fs.directory? (Path.join decompiled TreeArea.resourceDirectory) =
          some resources := hresources
      rw [FileSystem.entriesAt, hresources]
      exact (FileSystem.mem_entries wf).mpr hdirectory
    · dsimp only
      rw [if_pos rfl]
      exact ofDirectory?_eq_some_iff.mpr ⟨hcar, hnamed⟩

/-- A directory with a lone hyphen behind a region, one that only looks like a locale, and a
file. -/
def Named.files : FileSystem :=
  { nodes :=
      [(["d"], .directory), (["d", "res"], .directory),
       (["d", "res", "values-pt-rBR-"], .directory), (["d", "res", "values-car"], .directory),
       (["d", "res", "values-fr"], .file "".toUTF8 false)]
    current := []
    temporary := "/" }

theorem collect_qualifiers_named :
    Named.files.WellFormed ∧ (collect Named.files "/d").Pairwise (· < ·) ∧
    "pt" ∈ collect Named.files "/d" ∧ "car" ∉ collect Named.files "/d" := by
  have wf : Named.files.WellFormed := by decide
  obtain ⟨hincreasing, hmem⟩ := collect_qualifiers Named.files wf "/d"
  refine ⟨wf, hincreasing, (hmem "pt").mpr ⟨by decide, ["d", "res"], "values-pt-rBR-", by decide,
    by decide, "-rBR-".toList, rfl, Or.inr ⟨"rBR-".toList, by decide, rfl⟩, by decide, ?_⟩,
    fun hcar => ((hmem "car").mp hcar).1 rfl⟩
  refine .language ⟨Or.inl rfl, List.all_iff_forall_prop.mp (by decide)⟩ ?_
  rintro region more ⟨a, b, rfl, -⟩ hrest
  obtain rfl : more = ['-'] := by simp_all
  simp [GoesOn]

/-- More qualifiers behind a region and behind a tag; densities, versions and files are none. -/
example : ["values-pt-rBR-v21", "values-b+sr+Latn-v21", "values-land", "values-v21", "values"].map
    ofDirectory? = [some "pt-rBR", some "b+sr+Latn", none, none, none] := by
  decide +kernel

end SdkEvidence.Locale
