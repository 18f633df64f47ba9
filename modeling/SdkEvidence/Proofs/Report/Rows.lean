import SdkEvidence.Proofs.Decimal.Digits
import SdkEvidence.Proofs.Repetition
import SdkEvidence.Report.Render

/-!
# Rows of the detection layout

How the rows of each section start: none as a verdict does and, but for a conclusion, none as what
was found is told. And rows without a line break in them: those that quote only texts without one
(`unbroken_detection`).
-/
namespace SdkEvidence.Layout

/-! ## Starts of rows -/

/-- How a line starts that gives a verdict. -/
def mark (found : Bool) : String :=
  if found then "  [FOUND]" else "  [NOT FOUND]"

/-- How the line starts that tells what was found. -/
def statement : String := "  The application "

/-- How the rows start that tell of what was found. -/
def marks : List String :=
  [mark true, mark false, statement]

/-- A row starts in none of these ways. -/
def Ordinary (row : String) : Prop :=
  ∀ start ∈ marks, ¬start.toList <+: row.toList

/-- Whether two texts differ before either ends. -/
def differ : List Char → List Char → Bool
  | a :: s, b :: t => a != b || differ s t
  | _, _ => false

theorem not_prefix_of_differ {start front : List Char} (h : differ start front = true)
    (back : List Char) : ¬start <+: front ++ back := by
  induction start generalizing front with
  | nil => simp [differ] at h
  | cons a start ih =>
    cases front with
    | nil => simp [differ] at h
    | cons b front =>
      rw [List.cons_append, List.cons_prefix_cons]
      rintro ⟨rfl, hstart⟩
      exact ih (by simpa [differ] using h) hstart

theorem ordinary_of_front {row : String} {front back : List Char}
    (h : marks.all (fun start => differ start.toList front) = true)
    (hrow : row.toList = front ++ back) : Ordinary row := by
  intro start hstart
  rw [hrow]
  exact not_prefix_of_differ (List.all_eq_true.mp h start hstart) back

/-- A row that starts with a literal, given as the list of its characters. -/
theorem ordinary_append {front : List Char}
    (h : marks.all (fun start => differ start.toList front) = true) (back : String) :
    Ordinary (String.ofList front ++ back) :=
  ordinary_of_front h (by rw [String.toList_append, String.toList_ofList])

theorem ordinary_ofList {front : List Char}
    (h : marks.all (fun start => differ start.toList front) = true) :
    Ordinary (String.ofList front) :=
  ordinary_of_front h (by rw [String.toList_ofList, List.append_nil])

/-- A row that starts with a label, behind blanks. -/
theorem ordinary_label {label : List Char}
    (h : marks.all (fun start => differ start.toList (' ' :: ' ' :: label)) = true)
    (back : String) : Ordinary ("  " ++ (String.ofList label ++ back)) := by
  have hblanks : "  ".toList = [' ', ' '] := rfl
  have hrow : ("  " ++ (String.ofList label ++ back)).toList =
      (' ' :: ' ' :: label) ++ back.toList := by
    rw [String.toList_append, String.toList_append, hblanks, String.toList_ofList]
    rfl
  exact ordinary_of_front h hrow

theorem ordinary_field {label : List Char}
    (h : marks.all (fun start => differ start.toList (' ' :: ' ' :: label)) = true)
    (value : String) : Ordinary (field (String.ofList label) value) := by
  simp only [field, padded, String.append_assoc]
  exact ordinary_label h _

instance (row : String) : Decidable (Ordinary row) :=
  inferInstanceAs (Decidable (∀ start ∈ marks, ¬start.toList <+: row.toList))

theorem toList_toString (n : Nat) : (toString n).toList = Nat.toDigits 10 n := by
  simp [toString, Nat.repr]

/-- A row that starts with a number has a digit after its margin. -/
theorem exists_toList_number (n : Nat) (back : String) :
    ∃ d more, ("  " ++ toString n ++ back).toList = [' ', ' ', d] ++ more ∧ d.isDigit = true := by
  obtain ⟨d, ds, hdigits, hd, -⟩ := Decimal.toDigits_cons n
  refine ⟨d, ds ++ back.toList, ?_, hd⟩
  rw [String.toList_append, String.toList_append, toList_toString, hdigits]
  rfl

/-- A row that starts with a number is ordinary. -/
theorem ordinary_number (n : Nat) (back : String) : Ordinary ("  " ++ toString n ++ back) := by
  obtain ⟨d, more, hrow, hd⟩ := exists_toList_number n back
  have hbracket : '[' ≠ d := (Decimal.ne_of_isDigit hd (by decide)).symm
  have hletter : 'T' ≠ d := (Decimal.ne_of_isDigit hd (by decide)).symm
  refine ordinary_of_front ?_ hrow
  simp [marks, mark, statement, differ, hbracket, hletter]

/-! ## The rows of the layout -/

section Rows

variable (report : Report)

theorem ordinary_heading {text : String} (h : Ordinary text) :
    ∀ row ∈ heading text, Ordinary row :=
  List.forall_mem_cons.mpr ⟨by decide, List.forall_mem_cons.mpr ⟨h, by decide⟩⟩

theorem ordinary_mergeRows (merge : MergeOutcome) : ∀ row ∈ mergeRows merge, Ordinary row := by
  simp only [mergeRows, List.cons_append, List.forall_mem_cons, List.forall_mem_append]
  refine ⟨ordinary_field (by decide) _, fun row hrow => ?_, fun row hrow => ?_⟩
  · split at hrow
    next => cases hrow
    next =>
      obtain rfl := List.mem_singleton.mp hrow
      exact ordinary_field (by decide) _
  · split at hrow
    next => cases hrow
    next =>
      obtain rfl := List.mem_singleton.mp hrow
      exact ordinary_field (by decide) _

theorem ordinary_application : ∀ row ∈ application report, Ordinary row := by
  simp only [application, List.forall_mem_append]
  refine ⟨⟨ordinary_heading (ordinary_ofList (by decide)), fun row hrow => ?_⟩, fun row hrow => ?_⟩
  · simp only [List.mem_cons, List.not_mem_nil, or_false] at hrow
    rcases hrow with rfl | rfl | rfl | rfl | rfl | rfl <;> exact ordinary_field (by decide) _
  · cases hmerge : report.merge with
    | none => simp [hmerge] at hrow
    | some merge => exact ordinary_mergeRows merge row (by simpa [hmerge] using hrow)

theorem ordinary_sdks : ∀ row ∈ sdks report, Ordinary row := by
  simp only [sdks, countedHeading, List.forall_mem_append]
  refine ⟨ordinary_heading ?_, fun row hrow => ?_⟩
  · simp only [String.append_assoc]
    exact ordinary_append (by decide) _
  · split at hrow
    next =>
      obtain rfl := List.mem_singleton.mp hrow
      exact ordinary_ofList (by decide)
    next =>
      obtain ⟨sdk, -, rfl⟩ := List.mem_map.mp hrow
      simp only [sdkRow, String.append_assoc]
      exact ordinary_append (by decide) _

theorem ordinary_libraryCount : Ordinary ("  " ++ libraryCount report) := by
  rw [libraryCount]
  split
  next => decide
  next =>
    simp only [String.append_assoc]
    rw [← String.append_assoc]
    exact ordinary_number _ _

theorem ordinary_libraryNames : ∀ row ∈ libraryNames report, Ordinary row := by
  simp only [libraryNames, List.forall_mem_append]
  refine ⟨⟨ordinary_heading (ordinary_ofList (by decide)), fun row hrow => ?_⟩, fun row hrow => ?_⟩
  · obtain rfl := List.mem_singleton.mp hrow
    exact ordinary_libraryCount report
  · obtain ⟨name, -, rfl⟩ := List.mem_map.mp hrow
    exact ordinary_append (by decide) name

theorem ordinary_methods : ∀ row ∈ methods report, Ordinary row := by
  simp only [methods, List.forall_mem_append]
  refine ⟨⟨ordinary_heading (ordinary_ofList (by decide)), fun row hrow => ?_⟩, fun row hrow => ?_⟩
  · obtain ⟨i, hi, rfl⟩ := List.mem_mapIdx.mp hrow
    rw [String.append_assoc]
    exact ordinary_number _ _
  · simp only [List.mem_cons, List.not_mem_nil, or_false] at hrow
    rcases hrow with rfl | rfl
    · exact ordinary_ofList (by decide)
    · exact ordinary_number _ _

theorem ordinary_technicalDetails : ∀ row ∈ technicalDetails report, Ordinary row := by
  simp only [technicalDetails, List.forall_mem_append]
  refine ⟨⟨⟨ordinary_heading (ordinary_ofList (by decide)), fun row hrow => ?_⟩,
    fun row hrow => ?_⟩, fun row hrow => ?_⟩
  · simp only [List.mem_cons, List.not_mem_nil, or_false] at hrow
    rcases hrow with rfl | rfl | rfl <;> exact ordinary_field (by decide) _
  · cases hdigest : report.packageDigest with
    | none => simp [hdigest] at hrow
    | some digest =>
      obtain rfl : row = field "Package SHA-256" digest := by simpa [hdigest] using hrow
      exact ordinary_field (by decide) _
  · simp only [List.mem_cons, List.not_mem_nil, or_false] at hrow
    rcases hrow with rfl | rfl
    · exact ordinary_field (by decide) _
    · exact ordinary_ofList (by decide)

/-- The rows of a banner other than its verdict are ordinary. -/
theorem ordinary_evidence (record : EvidenceRecord) :
    Ordinary (indent ++ record.summary) ∧ ∀ row ∈ record.channels.map channelRow, Ordinary row := by
  refine ⟨ordinary_append (by decide) _, fun row hrow => ?_⟩
  obtain ⟨evidence, -, rfl⟩ := List.mem_map.mp hrow
  simp only [channelRow, String.append_assoc]
  exact ordinary_append (by decide) _

theorem ordinary_keywordRow {label : List Char}
    (h : marks.all (fun start => differ start.toList (' ' :: ' ' :: label)) = true)
    (keywords : List String) : Ordinary (keywordRow (String.ofList label) keywords) := by
  simp only [keywordRow, String.append_assoc]
  exact ordinary_label h _

/-- The row that tells what was found. -/
def foundRow (report : Report) : String :=
  statement ++ report.metadata.facts.packageId ++ " contains SDK(s) matching: " ++
    (", ".intercalate (keywordsOf report.found) ++ ".")

/-- The rows of a conclusion: ordinary ones, or what was found. -/
theorem conclusion_cases : ∀ row ∈ conclusion report, Ordinary row ∨
    keywordsOf report.found ≠ [] ∧ row = foundRow report := by
  simp only [conclusion, List.forall_mem_append]
  have hheading : Ordinary "CONCLUSION" := ordinary_ofList (by decide)
  refine ⟨fun row hrow => .inl (ordinary_heading hheading row hrow), fun row hrow => ?_⟩
  split at hrow
  next =>
    simp only [List.mem_cons, List.not_mem_nil, or_false] at hrow
    refine .inl ?_
    rcases hrow with rfl | rfl | rfl
    · simp only [String.append_assoc]
      exact ordinary_append (by decide) _
    · exact ordinary_ofList (by decide)
    · exact ordinary_ofList (by decide)
  next hfound =>
    simp only [List.mem_cons, List.not_mem_nil, or_false] at hrow
    rcases hrow with rfl | rfl
    · refine .inr ⟨by simpa using hfound, ?_⟩
      simp only [foundRow, statement, String.append_assoc]
    · exact .inl (ordinary_ofList (by decide))

end Rows

/-! ## Rows without breaks -/

/-- No line breaks off within the text. -/
def Unbroken (text : String) : Prop :=
  '\n' ∉ text.toList

/-- No line breaks off within the texts that a report quotes, other than keywords. -/
structure NoBreaks (report : Report) : Prop where
  packageId : Unbroken report.metadata.facts.packageId
  displayName : Unbroken report.metadata.facts.displayName
  versionName : Unbroken report.metadata.facts.versionName
  versionCode : Unbroken report.metadata.facts.versionCode
  minSdk : Unbroken report.metadata.facts.minSdk
  targetSdk : Unbroken report.metadata.facts.targetSdk
  source : Unbroken report.source
  toolVersion : Unbroken report.toolVersion
  decompiler : Unbroken report.decompiler
  digest : ∀ digest ∈ report.packageDigest, Unbroken digest
  merge : ∀ merge ∈ report.merge, Unbroken merge.base
  summaries : ∀ record ∈ report.evidence, Unbroken record.summary
  sdks : ∀ sdk ∈ report.sdks, Unbroken sdk.name ∧ (∀ version ∈ sdk.version, Unbroken version) ∧
    ∀ vendor ∈ sdk.vendor, Unbroken vendor
  libraries : ∀ library ∈ report.libraries, Unbroken library.name
  architectures : ∀ architecture ∈ report.architectures, Unbroken architecture

section Unbroken

instance (text : String) : Decidable (Unbroken text) :=
  inferInstanceAs (Decidable (¬_))

/-- A literal is a list of characters, which are looked at without decoding its bytes. -/
theorem unbroken_ofList {chars : List Char} (h : '\n' ∉ chars) :
    Unbroken (String.ofList chars) := by
  rwa [Unbroken, String.toList_ofList]

variable {a b : String} {texts : List String}

theorem unbroken_append : Unbroken (a ++ b) ↔ Unbroken a ∧ Unbroken b := by
  simp [Unbroken]

theorem unbroken_blanks (n : Nat) : Unbroken (String.ofList (List.replicate n ' ')) := by
  simp [Unbroken, List.mem_replicate]

theorem unbroken_padded {width : Nat} (h : Unbroken a) : Unbroken (padded width a) :=
  unbroken_append.mpr ⟨h, unbroken_blanks _⟩

theorem unbroken_digits (n : Nat) : '\n' ∉ Nat.toDigits 10 n :=
  Decimal.notMem_toDigits (by decide) n

theorem unbroken_toString (n : Nat) : Unbroken (toString n) := by
  rw [Unbroken, toList_toString]
  exact unbroken_digits n

theorem unbroken_field {label : List Char} {value : String} (hlabel : '\n' ∉ label)
    (hvalue : Unbroken value) : Unbroken (field (String.ofList label) value) := by
  refine unbroken_append.mpr ⟨unbroken_append.mpr ⟨by decide, ?_⟩, hvalue⟩
  exact unbroken_padded (unbroken_append.mpr ⟨unbroken_ofList hlabel, by decide⟩)

theorem unbroken_intercalate (h : ∀ text ∈ texts, Unbroken text) :
    Unbroken (", ".intercalate texts) := by
  induction texts with
  | nil => exact unbroken_ofList (by decide)
  | cons first rest ih =>
    obtain ⟨hfirst, hrest⟩ := List.forall_mem_cons.mp h
    cases rest with
    | nil => simpa using hfirst
    | cons second rest =>
      rw [String.intercalate_cons_cons, unbroken_append, unbroken_append]
      exact ⟨⟨hfirst, by decide⟩, ih hrest⟩

theorem unbroken_heading (h : Unbroken a) : ∀ row ∈ heading a, Unbroken row :=
  List.forall_mem_cons.mpr ⟨by decide, List.forall_mem_cons.mpr ⟨h, by decide⟩⟩

theorem unbroken_readable (t : Timestamp) : Unbroken t.readable := by
  have hpadded (width n : Nat) : Unbroken (Timestamp.padded width n) := by
    simp [Unbroken, Timestamp.padded, unbroken_digits]
  have hyear : Unbroken (Timestamp.yearText t.year) := by
    rw [Timestamp.yearText]
    split
    next => exact hpadded _ _
    next =>
      rw [unbroken_append]
      exact ⟨by split <;> decide, hpadded _ _⟩
  simp only [Timestamp.readable, unbroken_append, hyear, hpadded, true_and, and_true]
  decide

theorem unbroken_mergeRows {merge : MergeOutcome} (h : Unbroken merge.base) :
    ∀ row ∈ mergeRows merge, Unbroken row := by
  simp only [mergeRows, List.cons_append, List.forall_mem_cons, List.forall_mem_append]
  refine ⟨unbroken_field (by decide) ?_, fun row hrow => ?_, fun row hrow => ?_⟩
  · simp only [unbroken_append, h, unbroken_toString, true_and, and_true, and_assoc]
    refine ⟨?_, ?_, ?_, ?_⟩ <;> exact unbroken_ofList (by decide)
  · split at hrow
    next => cases hrow
    next =>
      obtain rfl := List.mem_singleton.mp hrow
      exact unbroken_field (by decide)
        (unbroken_append.mpr ⟨unbroken_toString _, unbroken_ofList (by decide)⟩)
  · split at hrow
    next => cases hrow
    next =>
      obtain rfl := List.mem_singleton.mp hrow
      exact unbroken_field (by decide) (unbroken_append.mpr ⟨unbroken_toString _, by decide⟩)

variable {report : Report}

theorem unbroken_application (h : NoBreaks report) : ∀ row ∈ application report, Unbroken row := by
  have hversion : Unbroken (report.metadata.facts.versionName ++ " (code "
      ++ report.metadata.facts.versionCode ++ ")") := by
    simp only [unbroken_append, h.versionName, h.versionCode, true_and, and_true]
    decide
  simp only [application, List.forall_mem_append]
  refine ⟨⟨unbroken_heading (unbroken_ofList (by decide)), ?_⟩, fun row hrow => ?_⟩
  · simp only [List.forall_mem_cons]
    exact ⟨unbroken_field (by decide) h.packageId, unbroken_field (by decide) h.displayName,
      unbroken_field (by decide) hversion, unbroken_field (by decide) h.minSdk,
      unbroken_field (by decide) h.targetSdk, unbroken_field (by decide) h.source, by simp⟩
  · cases hmerge : report.merge with
    | none => simp [hmerge] at hrow
    | some merge =>
      exact unbroken_mergeRows (h.merge merge hmerge) row (by simpa [hmerge] using hrow)

theorem unbroken_banner {record : EvidenceRecord} (hkeyword : Unbroken record.keyword)
    (hsummary : Unbroken record.summary) : ∀ row ∈ banner record, Unbroken row := by
  have hmark : Unbroken (verdictMark record.found) := by
    cases record.found <;> decide
  simp only [banner, List.forall_mem_cons]
  refine ⟨by decide, unbroken_append.mpr ⟨hmark, hkeyword⟩,
    unbroken_append.mpr ⟨by decide, hsummary⟩, fun row hrow => ?_⟩
  obtain ⟨evidence, -, rfl⟩ := List.mem_map.mp hrow
  have hlabel : Unbroken evidence.channel.label := by
    cases evidence.channel <;> exact unbroken_ofList (by decide)
  have hcount : Unbroken (if evidence.scanned then toString evidence.count
      else "not present in package") := by
    split
    next => exact unbroken_toString _
    next => exact unbroken_ofList (by decide)
  simp only [channelRow, unbroken_append, unbroken_padded hlabel, hcount, and_true]
  decide

theorem unbroken_keywordRow {label : String} {keywords : List String} (hlabel : Unbroken label)
    (h : ∀ keyword ∈ keywords, Unbroken keyword) : Unbroken (keywordRow label keywords) := by
  have hlisted : Unbroken (listed keywords) := by
    rw [listed]
    split
    next => decide
    next => exact unbroken_intercalate h
  simp only [keywordRow, unbroken_append, hlabel, hlisted, unbroken_toString, and_true]
  decide

section Keywords

variable (hkeywords : ∀ record ∈ report.evidence, Unbroken record.keyword)
include hkeywords

theorem unbroken_keywordsOf (p : EvidenceRecord → Bool) :
    ∀ keyword ∈ keywordsOf (report.evidence.filter p), Unbroken keyword := by
  intro keyword hkeyword
  obtain ⟨record, hrecord, rfl⟩ := List.mem_map.mp hkeyword
  exact hkeywords record (List.mem_filter.mp hrecord).1

theorem unbroken_results (h : NoBreaks report) : ∀ row ∈ results report, Unbroken row := by
  simp only [results, List.forall_mem_append, List.forall_mem_flatMap]
  refine ⟨⟨unbroken_heading (unbroken_ofList (by decide)), fun record hrecord =>
    unbroken_banner (hkeywords record hrecord) (h.summaries record hrecord)⟩, ?_⟩
  simp only [List.forall_mem_cons]
  exact ⟨by decide, unbroken_keywordRow (by decide) (unbroken_keywordsOf hkeywords _),
    unbroken_keywordRow (by decide) (unbroken_keywordsOf hkeywords _), by simp⟩

theorem unbroken_conclusion (h : NoBreaks report) : ∀ row ∈ conclusion report, Unbroken row := by
  have hfound : Unbroken (", ".intercalate (keywordsOf report.found)) :=
    unbroken_intercalate (unbroken_keywordsOf hkeywords _)
  have hall : Unbroken (", ".intercalate (keywordsOf report.evidence)) :=
    unbroken_intercalate (List.forall_mem_map.mpr hkeywords)
  simp only [conclusion, List.forall_mem_append]
  refine ⟨unbroken_heading (unbroken_ofList (by decide)), ?_⟩
  split
  next =>
    simp only [List.forall_mem_cons, unbroken_append, hall, h.packageId, and_true, and_assoc]
    refine ⟨?_, ?_, ?_, ?_, ?_, by simp⟩ <;> exact unbroken_ofList (by decide)
  next =>
    simp only [List.forall_mem_cons, unbroken_append, hfound, h.packageId, and_true, and_assoc]
    refine ⟨?_, ?_, ?_, ?_, by simp⟩ <;> exact unbroken_ofList (by decide)

end Keywords

theorem unbroken_sdkRow {sdk : DetectedSdk} (hname : Unbroken sdk.name)
    (hversion : ∀ version ∈ sdk.version, Unbroken version)
    (hvendor : ∀ vendor ∈ sdk.vendor, Unbroken vendor) : Unbroken (sdkRow sdk) := by
  have hversion : Unbroken ((sdk.version.map fun version => " " ++ version).getD "") := by
    cases hsome : sdk.version with
    | none => decide
    | some version => exact unbroken_append.mpr ⟨by decide, hversion version hsome⟩
  have hvendor : Unbroken ((sdk.vendor.map fun vendor => " [" ++ vendor ++ "]").getD "") := by
    cases hsome : sdk.vendor with
    | none => decide
    | some vendor =>
      exact unbroken_append.mpr
        ⟨unbroken_append.mpr ⟨by decide, hvendor vendor hsome⟩, by decide⟩
  have hnote : Unbroken (sourceNote sdk.source) := by
    cases sdk.source <;> exact unbroken_ofList (by decide)
  simp only [sdkRow, unbroken_append, hname, hversion, hvendor, hnote, and_true]
  decide

theorem unbroken_sdks (h : NoBreaks report) : ∀ row ∈ sdks report, Unbroken row := by
  have hcount : Unbroken ("ALL DETECTED SDKS" ++ " (" ++ toString report.sdks.length ++ ")") := by
    simp only [unbroken_append, unbroken_toString, and_true]
    decide
  simp only [sdks, countedHeading, List.forall_mem_append]
  refine ⟨unbroken_heading hcount, fun row hrow => ?_⟩
  split at hrow
  next =>
    obtain rfl := List.mem_singleton.mp hrow
    exact unbroken_ofList (by decide)
  next =>
    obtain ⟨sdk, hsdk, rfl⟩ := List.mem_map.mp hrow
    obtain ⟨hname, hversion, hvendor⟩ := h.sdks sdk hsdk
    exact unbroken_sdkRow hname hversion hvendor

theorem unbroken_libraryCount (h : NoBreaks report) : Unbroken (libraryCount report) := by
  rw [libraryCount]
  split
  next => decide
  next =>
    have hending : Unbroken (if report.libraries.length = 1 then "y" else "ies") := by
      split <;> decide
    simp only [unbroken_append, unbroken_toString, unbroken_intercalate h.architectures, hending,
      true_and, and_true, and_assoc]
    refine ⟨?_, ?_, ?_⟩ <;> exact unbroken_ofList (by decide)

theorem unbroken_libraryNames (h : NoBreaks report) :
    ∀ row ∈ libraryNames report, Unbroken row := by
  simp only [libraryNames, List.forall_mem_append]
  refine ⟨⟨unbroken_heading (unbroken_ofList (by decide)), fun row hrow => ?_⟩, fun row hrow => ?_⟩
  · obtain rfl := List.mem_singleton.mp hrow
    exact unbroken_append.mpr ⟨by decide, unbroken_libraryCount h⟩
  · obtain ⟨name, hname, rfl⟩ := List.mem_map.mp hrow
    obtain ⟨library, hlibrary, rfl⟩ := List.mem_map.mp (mem_sortedDistinct.mp hname)
    exact unbroken_append.mpr ⟨by decide, h.libraries library hlibrary⟩

theorem unbroken_methods (report : Report) : ∀ row ∈ methods report, Unbroken row := by
  have hmethod (channel : EvidenceChannel) : Unbroken channel.method := by
    cases channel <;> exact unbroken_ofList (by decide)
  simp only [methods, List.forall_mem_append]
  refine ⟨⟨unbroken_heading (unbroken_ofList (by decide)), fun row hrow => ?_⟩, ?_⟩
  · obtain ⟨i, hi, rfl⟩ := List.mem_mapIdx.mp hrow
    simp only [unbroken_append, unbroken_toString, hmethod, and_true]
    decide
  · simp only [List.forall_mem_cons, unbroken_append, unbroken_toString, and_true, and_assoc]
    refine ⟨?_, ?_, ?_, by simp⟩ <;> exact unbroken_ofList (by decide)

theorem unbroken_technicalDetails (h : NoBreaks report) :
    ∀ row ∈ technicalDetails report, Unbroken row := by
  simp only [technicalDetails, List.forall_mem_append, List.forall_mem_cons]
  refine ⟨⟨⟨unbroken_heading (unbroken_ofList (by decide)), ?_⟩, fun row hrow => ?_⟩, ?_⟩
  · exact ⟨unbroken_field (by decide) (unbroken_append.mpr ⟨by decide, h.toolVersion⟩),
      unbroken_field (by decide) h.decompiler,
      unbroken_field (by decide) (unbroken_append.mpr ⟨unbroken_toString _, by decide⟩), by simp⟩
  · cases hdigest : report.packageDigest with
    | none => simp [hdigest] at hrow
    | some digest =>
      obtain rfl : row = field "Package SHA-256" digest := by simpa [hdigest] using hrow
      exact unbroken_field (by decide) (h.digest digest hdigest)
  · exact ⟨unbroken_field (by decide) (unbroken_readable _), by decide, by simp⟩

/-- No row of a report has a break in it if no text that it quotes has one. -/
theorem unbroken_detection (hkeywords : ∀ record ∈ report.evidence, Unbroken record.keyword)
    (h : NoBreaks report) : ∀ row ∈ detection report, Unbroken row := by
  have htitle : ∀ row ∈ title "ANDROID SDK DETECTION REPORT", Unbroken row := by decide
  simp only [detection, List.forall_mem_append]
  exact ⟨⟨⟨⟨⟨⟨⟨htitle, unbroken_application h⟩, unbroken_results hkeywords h⟩, unbroken_sdks h⟩,
    unbroken_libraryNames h⟩, unbroken_methods report⟩, unbroken_conclusion hkeywords h⟩,
    unbroken_technicalDetails h⟩

end Unbroken

end SdkEvidence.Layout
