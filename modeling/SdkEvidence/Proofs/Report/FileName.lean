import SdkEvidence.Proofs.Action
import SdkEvidence.Proofs.FileSystem.Entering
import SdkEvidence.Proofs.FileSystem.Files
import SdkEvidence.Proofs.Report.Slug
import SdkEvidence.Proofs.Report.Timestamp

/-!
# The files of reports

Whatever a package is called, the usual name of its report is one component of a path
(`Report.isPlainName_fileName`). So a report that is written under this name stands in the directory
itself. It is written unless the directory cannot be made, the name is too long, or a directory has
the name already (`Report.write_own_name`).
-/
namespace SdkEvidence

open FileSystem

/-! ## A name in a directory -/

/-- A name is one component. -/
theorem Path.components_of_isName {name : String} (h : IsName name) :
    components name = [.name name] := by
  have hcomponent : component? name = some (.name name) := by
    simp [component?, h.nonempty, h.ne_dot, h.ne_parent]
  simp [components, body, isAbsolute_of_isName h, segments_of_isName h, relativeComponents,
    hcomponent, h.ne_dot]

namespace FileSystem

variable {fs : FileSystem} {p : PathText} {name : String}

/-- A name that is joined to a directory is looked up in it; the empty path stands for the current
directory. -/
theorem resolve_join_isName (hp : p ≠ "" → fs.find? p = some (fs.locate p, .directory))
    (hname : IsName name) (hnul : '\x00' ∉ name.toList) :
    fs.resolve (Path.join p name) = fs.follow (fs.locate p) [name] := by
  have hsegments := segments_of_isName hname
  have hrel := isAbsolute_of_isName hname
  by_cases hempty : p = ""
  · have hjoin : Path.join p name = name := by
      rw [hempty, Path.join, if_neg (by simp [hrel]), if_pos (Or.inl rfl), String.empty_append]
    have hhere : fs.locate p = fs.current := by
      subst hempty
      rfl
    rw [hjoin, hhere, resolve, if_neg hname.nonempty, if_neg (by simpa using hnul)]
    simp [Path.body, hrel, hsegments]
  · rw [(Enters.of_join (hp hempty) hrel hnul).resolve, hsegments]

/-- A name is followed in a directory only, and only if it is not too long. -/
theorem follow_name_ok {place : Location} {target : Target} (hname : IsName name)
    (h : fs.follow place [name] = .ok target) :
    fs.get? place = some .directory ∧ name.utf8ByteSize ≤ nameLimit := by
  cases follow_eq_ok_iff.mp h with
  | filler _ hfiller =>
    rw [isFiller_of_isName hname] at hfiller
    cases hfiller
  | step hdir _ hpasses => exact ⟨hdir, Nat.not_lt.mp (hpasses.resolve_left hname.ne_parent).1⟩
  | free hdir _ _ hfits => exact ⟨hdir, Nat.not_lt.mp hfits⟩

/-- A file of some name can be written into a directory: the directory is there, the name is not too
long, and no directory has it. -/
structure HasRoom (fs : FileSystem) (place : Location) (name : String) : Prop where
  directory : fs.get? place = some .directory
  fits : name.utf8ByteSize ≤ nameLimit
  vacant : fs.get? (place ++ [name]) ≠ some .directory

theorem writeFile_join_iff (hp : p ≠ "" → fs.find? p = some (fs.locate p, .directory))
    (hname : IsName name) (hnul : '\x00' ∉ name.toList) (content : ByteArray) :
    (∃ after, fs.writeFile (Path.join p name) content = .ok after)
      ↔ HasRoom fs (fs.locate p) name := by
  have hresolve := resolve_join_isName hp hname hnul
  constructor
  · rintro ⟨after, hwrite⟩
    obtain ⟨executable, -, hvacant, -, -⟩ := writeFile_ok hwrite
    rw [locate_join_name fs p hname] at hvacant
    have htarget : ∃ target, fs.follow (fs.locate p) [name] = .ok target := by
      rw [writeFile, hresolve] at hwrite
      split at hwrite
      next => cases hwrite
      all_goals exact ⟨_, by assumption⟩
    obtain ⟨target, htarget⟩ := htarget
    obtain ⟨hdir, hfits⟩ := follow_name_ok hname htarget
    exact ⟨hdir, hfits, hvacant⟩
  · rintro ⟨hdir, hfits, hvacant⟩
    have hstorable : Storable name := ⟨hname, hnul, Nat.not_lt.mpr hfits⟩
    rw [writeFile, hresolve, follow_name hdir hstorable]
    cases hget : fs.get? (fs.locate p ++ [name]) with
    | none => exact ⟨_, rfl⟩
    | some node =>
      cases node with
      | directory => exact absurd hget hvacant
      | file content executable => exact ⟨_, rfl⟩

/-- A name that is too long is refused by any directory. -/
theorem writeFile_join_long (hp : p ≠ "" → fs.find? p = some (fs.locate p, .directory))
    (hdir : fs.get? (fs.locate p) = some .directory) (hname : IsName name)
    (hnul : '\x00' ∉ name.toList) (hlong : nameLimit < name.utf8ByteSize) (content : ByteArray) :
    fs.writeFile (Path.join p name) content = .error .nameTooLong := by
  rw [writeFile, resolve_join_isName hp hname hnul, follow, hdir]
  simp only [isFiller_of_isName hname, hname.ne_parent, hlong, Bool.false_eq_true, if_false,
    if_true]

end FileSystem

/-! ## The usual name -/

open Slug

/-- A name of slug characters and dots, with one dot only, that is one component as a path. -/
structure IsPlainName (name : String) : Prop where
  chars : ∀ c ∈ name.toList, IsSlugChar c ∨ c = '.'
  oneDot : name.toList.count '.' = 1
  component : Path.components name = [.name name]

theorem IsPlainName.no_nul {name : String} (h : IsPlainName name) : '\x00' ∉ name.toList := by
  intro hmem
  rcases h.chars _ hmem with hc | hc
  · exact absurd hc (by decide)
  · cases hc

/-- Texts of slug characters around a dot, with a hyphen before it, are a name. -/
theorem isName_of_slugChars {stem extension : String} (hyphen : '-' ∈ stem.toList)
    (hstem : ∀ c ∈ stem.toList, IsSlugChar c) (hextension : ∀ c ∈ extension.toList, IsSlugChar c) :
    IsName (stem ++ "." ++ extension) := by
  have hmem : '-' ∈ (stem ++ "." ++ extension).toList := by simp [hyphen]
  have hne {other : String} (h : '-' ∉ other.toList) : stem ++ "." ++ extension ≠ other := by
    rintro rfl
    exact h hmem
  refine ⟨hne (by decide), hne (by decide), hne (by decide), fun hslash => ?_⟩
  simp only [String.toList_append, List.mem_append] at hslash
  rcases hslash with (hslash | hslash) | hslash
  · exact absurd (hstem _ hslash) (by decide)
  · exact absurd hslash (by decide)
  · exact absurd (hextension _ hslash) (by decide)

theorem isPlainName_of_slugChars {stem extension : String} (hyphen : '-' ∈ stem.toList)
    (hstem : ∀ c ∈ stem.toList, IsSlugChar c) (hextension : ∀ c ∈ extension.toList, IsSlugChar c) :
    IsPlainName (stem ++ "." ++ extension) := by
  have hdot {text : String} (h : ∀ c ∈ text.toList, IsSlugChar c) : text.toList.count '.' = 0 := by
    rw [List.count_eq_zero]
    exact fun hmem => absurd (h _ hmem) (by decide)
  have hname := isName_of_slugChars hyphen hstem hextension
  refine ⟨fun c hc => ?_, ?_, Path.components_of_isName hname⟩
  · simp only [String.toList_append, List.mem_append] at hc
    rcases hc with (hc | hc) | hc
    · exact Or.inl (hstem c hc)
    · exact Or.inr (by simpa using hc)
    · exact Or.inl (hextension c hc)
  · rw [String.toList_append, String.toList_append, List.count_append, List.count_append,
      hdot hstem, hdot hextension]
    rfl

theorem isSlugChar_of_isDigit {c : Char} (h : c.isDigit = true) : IsSlugChar c :=
  Or.inr (Or.inl (by simpa [Char.isDigit, Char.le_def] using h))

/-- The characters of a moment in file names. -/
theorem isSlugChar_stamp {t : Timestamp} (hlow : 0 ≤ t.year) (hhigh : t.year ≤ 9999) :
    ∀ c ∈ t.stamp.toList, IsSlugChar c := by
  have hpadded (width n : Nat) : ∀ c ∈ (Timestamp.padded width n).toList, IsSlugChar c := by
    intro c hc
    rw [Timestamp.toList_padded] at hc
    exact isSlugChar_of_isDigit (Timestamp.isDigit_paddedChars hc)
  have hhyphen : ∀ c ∈ "-".toList, IsSlugChar c := List.all_iff_forall_prop.mp (by decide)
  have hyear : Timestamp.yearText t.year = Timestamp.padded 4 t.year.toNat :=
    if_pos ⟨hlow, hhigh⟩
  simp only [Timestamp.stamp, hyear, String.toList_append, List.forall_mem_append]
  exact ⟨⟨⟨⟨⟨⟨hpadded _ _, hpadded _ _⟩, hpadded _ _⟩, hhyphen⟩, hpadded _ _⟩, hpadded _ _⟩,
    hpadded _ _⟩

namespace Report

variable {report : Report} {format : ReportFormat}

/-- The usual name is slug characters around a dot. -/
theorem exists_fileName (format : ReportFormat) (hlow : 0 ≤ report.generatedAt.year)
    (hhigh : report.generatedAt.year ≤ 9999) :
    ∃ stem, report.fileName format = stem ++ "." ++ format.extension ∧ '-' ∈ stem.toList ∧
      (∀ c ∈ stem.toList, IsSlugChar c) ∧ ∀ c ∈ format.extension.toList, IsSlugChar c := by
  have htag : ∀ c ∈ report.mode.tag.toList, IsSlugChar c := by
    cases report.mode with
    | inventory => exact List.all_iff_forall_prop.mp (by decide)
    | detection keywords =>
      rw [Mode.tag]
      exact List.all_iff_forall_prop.mp (by decide)
  have hsystem : ∀ c ∈ "-android-".toList, IsSlugChar c :=
    List.all_iff_forall_prop.mp (by decide)
  have hhyphen : ∀ c ∈ "-".toList, IsSlugChar c := List.all_iff_forall_prop.mp (by decide)
  have hextension : ∀ c ∈ format.extension.toList, IsSlugChar c := by
    cases format <;> exact List.all_iff_forall_prop.mp (by decide)
  refine ⟨_, rfl, by simp, ?_, hextension⟩
  simp only [String.toList_append, List.forall_mem_append]
  exact ⟨⟨⟨⟨htag, hsystem⟩, (isSlug_ofText _).chars⟩, hhyphen⟩, isSlugChar_stamp hlow hhigh⟩

theorem isPlainName_fileName (format : ReportFormat) (hlow : 0 ≤ report.generatedAt.year)
    (hhigh : report.generatedAt.year ≤ 9999) : IsPlainName (report.fileName format) := by
  obtain ⟨stem, hname, hyphen, hstem, hextension⟩ := exists_fileName format hlow hhigh
  rw [hname]
  exact isPlainName_of_slugChars hyphen hstem hextension

theorem isName_fileName (format : ReportFormat) (hlow : 0 ≤ report.generatedAt.year)
    (hhigh : report.generatedAt.year ≤ 9999) : IsName (report.fileName format) := by
  obtain ⟨stem, hname, hyphen, hstem, hextension⟩ := exists_fileName format hlow hhigh
  rw [hname]
  exact isName_of_slugChars hyphen hstem hextension

/-! ## Writing under the usual name -/

/-- A run that writes a report makes the directory and then writes the file. -/
theorem runIn_write (report : Report) (format : ReportFormat) (directory : PathText)
    (fs : FileSystem) :
    (report.write format directory none).runIn fs
      = match fs.createDirectories directory with
        | (made, .error e) => (.error (.ofOsError e), made)
        | (made, .ok ()) =>
            match made.writeFile (Path.join directory (report.fileName format))
              (Utf8.encode (report.render format)) with
            | .error e => (.error (.ofOsError e), made)
            | .ok after =>
                (.ok ⟨Path.join directory (report.fileName format), report.render format⟩,
                  after) := by
  unfold write Action.createDirectories
  simp only [Action.runIn_bind, Action.runIn_step, Action.runIn_change, Option.getD_none]
  rcases fs.createDirectories directory with ⟨made, e | u⟩
  · rfl
  · dsimp only
    cases made.writeFile (Path.join directory (report.fileName format))
      (Utf8.encode (report.render format)) <;> rfl

/-- A directory takes a file: it can be made with the missing ones above it, and has room then. -/
def Takes (fs : FileSystem) (directory : PathText) (name : String) : Prop :=
  (fs.createDirectories directory).2 = .ok () ∧
    HasRoom (fs.createDirectories directory).1 (fs.locate directory) name

/-- A text was written to a file of a directory: the path leads there, and apart from the file there
are new directories on the way to the directory only. -/
structure WrittenInto (directory : PathText) (name text : String) (written : WrittenReport)
    (fs after : FileSystem) : Prop where
  answer : written = ⟨Path.join directory name, text⟩
  content : after.contentAt? (fs.locate directory ++ [name]) = some (Utf8.encode text)
  path : after.readFile (Path.join directory name) = .ok (Utf8.encode text)
  inside : directory ≠ "" → after.find? directory = some (fs.locate directory, .directory)
  others : ∀ loc, loc ≠ fs.locate directory ++ [name] → GrownAt (fs.trail directory) fs after loc

section Writing

variable {fs after : FileSystem} {directory : PathText}

/-- Where the directory is after it was made. -/
theorem locate_createDirectories {made : FileSystem}
    (h : fs.createDirectories directory = (made, .ok ())) :
    made.locate directory = fs.locate directory ∧
      (directory ≠ "" → made.find? directory = some (made.locate directory, .directory)) := by
  have hlocate := locate_congr (p := directory) (createDirectories_grown h).current
  refine ⟨hlocate, fun hne => ?_⟩
  rw [hlocate]
  exact createDirectories_ok h hne

theorem exists_runIn_write_iff (hname : IsName (report.fileName format))
    (hnul : '\x00' ∉ (report.fileName format).toList) :
    (∃ written after, (report.write format directory none).runIn fs = (.ok written, after))
      ↔ Takes fs directory (report.fileName format) := by
  rw [Takes, runIn_write]
  rcases hmade : fs.createDirectories directory with ⟨made, e | ⟨⟩⟩
  · simp
  · obtain ⟨hlocate, hfind⟩ := locate_createDirectories hmade
    dsimp only
    rw [and_iff_right rfl, ← hlocate,
      ← writeFile_join_iff hfind hname hnul (Utf8.encode (report.render format))]
    cases made.writeFile (Path.join directory (report.fileName format))
      (Utf8.encode (report.render format)) <;> simp

theorem writtenInto_of_runIn_write (hname : IsName (report.fileName format))
    {written : WrittenReport}
    (hrun : (report.write format directory none).runIn fs = (.ok written, after)) :
    WrittenInto directory (report.fileName format) (report.render format) written fs after := by
  rw [runIn_write] at hrun
  rcases hmade : fs.createDirectories directory with ⟨made, e | ⟨⟩⟩
  · rw [hmade] at hrun
    cases hrun
  · rw [hmade] at hrun
    dsimp only at hrun
    split at hrun
    next => cases hrun
    next hwrite =>
      cases hrun
      obtain ⟨hlocate, hfind⟩ := locate_createDirectories hmade
      obtain ⟨executable, rfl, hvacant, hresolve, -⟩ := writeFile_ok hwrite
      rw [locate_join_name made directory hname, hlocate] at hvacant hresolve ⊢
      refine ⟨rfl, ?_, ?_, fun hne => ?_, fun loc hloc => ?_⟩
      · exact contentAt?_eq_some.mpr ⟨executable, get?_put_self made (by simp) _⟩
      · exact readFile_eq_ok.mpr ⟨_, executable, hresolve⟩
      · refine find?_directory_of_stays (put_current _ _ _) (fun d hd => ?_) (hlocate ▸ hfind hne)
        have hother : d ≠ fs.locate directory ++ [report.fileName format] := by
          rintro rfl
          exact hvacant hd
        rw [get?_put_of_ne made hother, hd]
      · rw [GrownAt, get?_put_of_ne made hloc]
        exact (createDirectories_grown hmade).node loc

/-- A run that fails leaves no file, and changes none. -/
theorem grownAt_of_runIn_write_error {e : Failure}
    (hrun : (report.write format directory none).runIn fs = (.error e, after)) (loc : Location) :
    GrownAt (fs.trail directory) fs after loc := by
  rw [runIn_write] at hrun
  rcases hmade : fs.createDirectories directory with ⟨made, e' | ⟨⟩⟩
  · rw [hmade] at hrun
    cases hrun
    exact (createDirectories_grown hmade).node loc
  · rw [hmade] at hrun
    dsimp only at hrun
    split at hrun
    next =>
      cases hrun
      exact (createDirectories_grown hmade).node loc
    next => cases hrun

/-- Under a name that is too long no report is written. -/
theorem runIn_write_long (hdir : fs.isDirectory directory = true)
    (hlow : 0 ≤ report.generatedAt.year) (hhigh : report.generatedAt.year ≤ 9999)
    (hlong : nameLimit < (report.fileName format).utf8ByteSize) :
    (report.write format directory none).runIn fs = (.error (.ofOsError .nameTooLong), fs) := by
  have hfind := isDirectory_eq_true.mp hdir
  have hget := (resolve_found (find?_eq_some.mp hfind)).2
  rw [runIn_write, createDirectories_of_isDirectory hdir]
  dsimp only
  rw [writeFile_join_long (fun _ => hfind) hget (isName_fileName format hlow hhigh)
    (isPlainName_fileName format hlow hhigh).no_nul hlong]

end Writing

/-- The slug of a text is a slug, what the text spells, and its own slug. So a report has a plain
name whatever its package is called, and under this name it is written into the directory itself,
unless the directory does not take a file of the name. -/
theorem write_own_name :
    (∀ text, IsSlug (ofText text) ∧ SlugOf (Text.lower text.toList) (ofText text) ∧
      ofText (ofText text) = ofText text) ∧
    ∀ (report : Report) (format : ReportFormat),
      0 ≤ report.generatedAt.year → report.generatedAt.year ≤ 9999 →
      IsPlainName (report.fileName format) ∧
      ∀ fs directory outcome after,
        (report.write format directory none).runIn fs = (outcome, after) →
        ((∃ written, outcome = .ok written) ↔ Takes fs directory (report.fileName format)) ∧
        (∀ written, outcome = .ok written →
          WrittenInto directory (report.fileName format) (report.render format) written fs after) ∧
        ∀ e, outcome = .error e → ∀ loc, GrownAt (fs.trail directory) fs after loc := by
  refine ⟨fun text => ?_, fun report format hlow hhigh => ?_⟩
  · exact ⟨isSlug_ofText text, slugOf_ofText text, ofText_of_isSlug (isSlug_ofText text)⟩
  have hplain := isPlainName_fileName format hlow hhigh
  have hname := isName_fileName format hlow hhigh
  have hnul := hplain.no_nul
  refine ⟨hplain, fun fs directory outcome after hrun => ⟨?_, ?_, ?_⟩⟩
  · rw [← exists_runIn_write_iff hname hnul, hrun]
    simp
  · rintro written rfl
    exact writtenInto_of_runIn_write hname hrun
  · rintro e rfl
    exact grownAt_of_runIn_write_error hrun

/-- A report on a package with an identifier. -/
def ofPackage (packageId : String) : Report where
  mode := .inventory
  generatedAt :=
    { year := 2026, month := 5, day := 20, hour := 8, minute := 15, second := 40
      nanosecond := 0, valid := by decide }
  toolVersion := "0.3.0"
  decompiler := "prebuilt"
  codeScanCap := 50
  packageListingLimit := 20
  source := "t"
  packageDigest := none
  metadata :=
    { facts :=
        { packageId, displayName := "unknown", versionName := "unknown"
          versionCode := "unknown", minSdk := "unknown", targetSdk := "unknown" }
      versionStamps := []
      permissions := []
      features := []
      buildInfo := []
      kotlin := { present := false, version := none }
      assets := { files := 0, bytes := 0 }
      resources := { files := 0, bytes := 0 }
      locales := []
      codePackages := [] }
  libraries := []
  architectures := []
  sdks := []
  evidence := []
  competitorMatches := []
  competitorsChecked := 0
  merge := none
  stages := []

/-- The report of a package whose identifier climbs a tree goes into the directory like any
other. -/
theorem write_own_name_climbing :
    ∃ written after, ((ofPackage "../../B c").write .text "/out" none).runIn FileSystem.empty
        = (.ok written, after) ∧
      after.contentAt? ["out", "inventory-android-b-c-20260520-081540.txt"]
        = some (Utf8.encode written.text) := by
  have hslug : ofText "../../B c" = "b-c" := by decide +kernel
  have hstamp : (ofPackage "../../B c").generatedAt.stamp = "20260520-081540" := by decide +kernel
  have hname : (ofPackage "../../B c").fileName .text
      = "inventory-android-b-c-20260520-081540.txt" := by
    have hparts : (ofPackage "../../B c").fileName .text = "inventory" ++ "-android-"
        ++ ofText "../../B c" ++ "-" ++ (ofPackage "../../B c").generatedAt.stamp ++ "."
        ++ "txt" := rfl
    rw [hparts, hslug, hstamp]
    decide
  have htakes : Takes FileSystem.empty "/out" "inventory-android-b-c-20260520-081540.txt" :=
    ⟨by decide, by decide, by decide, by decide⟩
  rcases hrun : ((ofPackage "../../B c").write .text "/out" none).runIn FileSystem.empty
    with ⟨outcome, after⟩
  obtain ⟨hiff, hwritten, -⟩ := (write_own_name.2 (ofPackage "../../B c") .text (by decide)
    (by decide)).2 _ _ _ _ hrun
  obtain ⟨written, rfl⟩ := hiff.mpr (hname ▸ htakes)
  obtain ⟨rfl, hcontent, -⟩ := hwritten written rfl
  refine ⟨_, after, rfl, ?_⟩
  rw [hname] at hcontent
  exact hcontent

/-- Letters of one kind are their own slug. -/
theorem isSlug_letters {n : Nat} (hn : n ≠ 0) : IsSlug (String.ofList (List.replicate n 'a')) := by
  obtain ⟨n, rfl⟩ := Nat.exists_eq_succ_of_ne_zero hn
  refine ⟨by simp, fun c hc => ?_, by simp [List.head?_replicate],
    by simp [List.getLast?_replicate]⟩
  rw [String.toList_ofList] at hc
  rw [List.eq_of_mem_replicate hc]
  decide

theorem utf8ByteSize_letters (n : Nat) :
    (String.ofList (List.replicate n 'a')).utf8ByteSize = n := by
  induction n with
  | zero => rfl
  | succ n ih =>
    rw [List.replicate_succ', String.ofList_append, String.utf8ByteSize_append, ih]
    rfl

theorem year_ofPackage (packageId : String) : (ofPackage packageId).generatedAt.year = 2026 := rfl

theorem subject_ofPackage {packageId : String} (h : packageId ≠ "unknown") :
    (ofPackage packageId).subject = packageId :=
  if_pos (bne_iff_ne.mpr h)

/-- An identifier of three hundred letters makes a name that no directory takes, so no report is
written. -/
theorem long_identifier_unwritten :
    (ofPackage (String.ofList (List.replicate 300 'a'))).generatedAt.year = 2026 ∧
    FileSystem.empty.WellFormed ∧ FileSystem.empty.isDirectory "/" = true ∧
    ((ofPackage (String.ofList (List.replicate 300 'a'))).write .text "/" none).runIn
        FileSystem.empty
      = (.error (.ofOsError .nameTooLong), FileSystem.empty) := by
  have hsize := utf8ByteSize_letters 300
  have hslug := isSlug_letters (n := 300) (by decide)
  generalize String.ofList (List.replicate 300 'a') = letters at hsize hslug ⊢
  have hother : letters ≠ "unknown" := by
    rintro rfl
    cases hsize
  have hlong : nameLimit < ((ofPackage letters).fileName .text).utf8ByteSize := by
    simp only [fileName, subject_ofPackage hother, ofText_of_isSlug hslug,
      String.utf8ByteSize_append, hsize, nameLimit]
    omega
  have hyear := year_ofPackage letters
  exact ⟨hyear, by decide, by decide, runIn_write_long (by decide) (by omega) (by omega) hlong⟩

end Report
end SdkEvidence
