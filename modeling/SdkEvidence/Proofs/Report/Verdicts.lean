import SdkEvidence.Proofs.Report.Rows
import SdkEvidence.Proofs.Text.Pieces

/-!
# Verdicts in a text report

The rows of the detection layout other than verdicts and conclusions start as neither of them does
(`Ordinary`). So the lines of the text that give a verdict are those of the records, unless a
break within a row starts a line that looks like one (`verdict_lines`).
-/
namespace SdkEvidence.Layout

/-! ## Lines that give a verdict -/

/-- The lines of a text. -/
def linesOf (text : String) : List (List Char) :=
  text.toList.splitOn '\n'

/-- Whether a line gives a verdict, which is the given one. -/
def gives (found : Bool) (line : List Char) : Bool :=
  (mark found).toList.isPrefixOf line

/-- Whether a line gives a verdict. -/
def isVerdict (line : List Char) : Bool :=
  gives true line || gives false line

/-- The lines of a text that give a verdict. -/
def verdictLines (text : String) : List (List Char) :=
  (linesOf text).filter isVerdict

/-- A line tells that the application holds what was searched for. -/
def StatesMatch (line : List Char) : Prop :=
  ∃ app found : String,
    line = (statement ++ app ++ " contains SDK(s) matching: " ++ found).toList

/-- A row forges a verdict: a break in it starts a line that looks like one. -/
def Forges (row : String) : Prop :=
  ∃ line ∈ (linesOf row).tail, isVerdict line = true

/-! ## Verdicts among the rows -/

section Rows

variable (report : Report)

/-- Whether a row starts as a verdict. -/
def isVerdictRow (row : String) : Bool :=
  isVerdict row.toList

theorem gives_iff {found : Bool} {line : List Char} :
    gives found line = true ↔ (mark found).toList <+: line :=
  List.isPrefixOf_iff_prefix

theorem isVerdict_iff {line : List Char} :
    isVerdict line = true ↔ ∃ found, (mark found).toList <+: line := by
  simp only [isVerdict, Bool.or_eq_true, gives_iff, Bool.exists_bool, or_comm]

theorem filter_ordinary {rows : List String} (h : ∀ row ∈ rows, Ordinary row) :
    rows.filter isVerdictRow = [] := by
  rw [List.filter_eq_nil_iff]
  intro row hrow hverdict
  obtain ⟨found, hmark⟩ := isVerdict_iff.mp hverdict
  exact h row hrow (mark found) (by cases found <;> decide) hmark

theorem gives_verdict (found : Bool) (record : EvidenceRecord) :
    gives found (verdict record).toList = (record.found == found) := by
  have hsame (found : Bool) : (mark found).toList <+: (verdictMark found).toList := by
    cases found <;> decide
  have hother (found : Bool) :
      differ (mark !found).toList (verdictMark found).toList = true := by
    cases found <;> decide
  rw [verdict, String.toList_append]
  cases heq : record.found == found with
  | true =>
    rw [eq_of_beq heq]
    exact gives_iff.mpr ((hsame found).trans (List.prefix_append _ _))
  | false =>
    have hfound : found = !record.found := by
      cases found <;> cases hrecord : record.found <;> simp_all
    rw [hfound, Bool.eq_false_iff, ne_eq, gives_iff]
    exact not_prefix_of_differ (hother _) _

theorem isVerdictRow_verdict (record : EvidenceRecord) : isVerdictRow (verdict record) = true := by
  rw [isVerdictRow, isVerdict, gives_verdict, gives_verdict]
  cases record.found <;> rfl

theorem filter_banner (record : EvidenceRecord) :
    (banner record).filter isVerdictRow = [verdict record] := by
  obtain ⟨hsummary, hchannels⟩ := ordinary_evidence record
  have hblank : isVerdictRow "" = false := by decide
  rw [banner, List.filter_cons_of_neg (by simp [hblank]),
    List.filter_cons_of_pos (isVerdictRow_verdict record),
    filter_ordinary (List.forall_mem_cons.mpr ⟨hsummary, hchannels⟩)]

theorem filter_results :
    (results report).filter isVerdictRow = report.evidence.map verdict := by
  have hrows : ∀ row ∈ ["", keywordRow "Found" (keywordsOf report.found),
      keywordRow "Not found" (keywordsOf report.notFound)], Ordinary row := by
    simp only [List.forall_mem_cons]
    exact ⟨by decide, ordinary_keywordRow (by decide) _, ordinary_keywordRow (by decide) _, by simp⟩
  rw [results, List.filter_append, List.filter_append, filter_ordinary hrows,
    filter_ordinary (ordinary_heading (ordinary_ofList (by decide))), List.filter_flatMap,
    List.append_nil, List.nil_append]
  simp only [filter_banner]
  exact List.flatMap_pure_eq_map _ _

theorem filter_conclusion : (conclusion report).filter isVerdictRow = [] := by
  rw [List.filter_eq_nil_iff]
  intro row hrow hverdict
  obtain ⟨found, hmark⟩ := isVerdict_iff.mp hverdict
  rcases conclusion_cases report row hrow with hordinary | ⟨-, rfl⟩
  · exact hordinary (mark found) (by cases found <;> decide) hmark
  · simp only [foundRow, String.append_assoc] at hmark
    rw [String.toList_append] at hmark
    exact not_prefix_of_differ (by cases found <;> decide) _ hmark

/-- The rows of a report that start as a verdict are its verdicts. -/
theorem filter_detection :
    (detection report).filter isVerdictRow = report.evidence.map verdict := by
  have htitle : ∀ row ∈ title "ANDROID SDK DETECTION REPORT", Ordinary row := by decide
  simp only [detection, List.filter_append, filter_ordinary htitle,
    filter_ordinary (ordinary_application report), filter_results,
    filter_ordinary (ordinary_sdks report), filter_ordinary (ordinary_libraryNames report),
    filter_ordinary (ordinary_methods report), filter_conclusion,
    filter_ordinary (ordinary_technicalDetails report), List.nil_append, List.append_nil]

end Rows

/-! ## Lines of rows -/

theorem toList_text (rows : List String) :
    (text rows).toList = rows.flatMap fun row => row.toList ++ ['\n'] := by
  rw [text, String.toList_join, List.flatMap_map]
  simp

/-- The lines of a text are those of its rows. -/
theorem linesOf_text (rows : List String) :
    linesOf (text rows) = rows.flatMap linesOf ++ [[]] := by
  rw [linesOf, toList_text]
  induction rows with
  | nil => rfl
  | cons row rows ih =>
    rw [List.flatMap_cons, List.append_assoc, List.singleton_append,
      List.splitOn_append_cons_self, ih, List.flatMap_cons, List.append_assoc, linesOf]

theorem linesOf_unbroken {row : String} (h : Unbroken row) : linesOf row = [row.toList] :=
  Text.splitOn_of_notMem h

/-- The first line of a row starts as a verdict if the row does. -/
theorem exists_linesOf (row : String) :
    ∃ first rest, linesOf row = first :: rest ∧ isVerdict first = isVerdictRow row := by
  obtain ⟨first, rest, hlines⟩ := List.exists_cons_of_ne_nil (List.splitOn_ne_nil '\n' row.toList)
  refine ⟨first, rest, hlines, ?_⟩
  have hfirst : first <+: row.toList := Text.prefix_of_splitOn hlines
  rw [Bool.eq_iff_iff, isVerdictRow, isVerdict_iff, isVerdict_iff]
  constructor
  · rintro ⟨found, hmark⟩
    exact ⟨found, hmark.trans hfirst⟩
  · rintro ⟨found, hmark⟩
    have hunbroken : Unbroken (mark found) := by
      cases found <;> exact unbroken_ofList (by decide)
    have hne : ∀ c ∈ (mark found).toList, (c == '\n') = false := by
      intro c hc
      rw [beq_eq_false_iff_ne]
      exact ne_of_mem_of_not_mem hc hunbroken
    obtain ⟨head, tail, hsplit, hhead⟩ := Text.exists_splitOnP_of_prefix hmark hne
    rw [← List.splitOn_eq_splitOnP, hlines] at hsplit
    exact ⟨found, (List.cons.inj hsplit).1 ▸ hhead⟩

/-- The lines of a row that give a verdict: the row itself if it starts as one, and those that are
forged. -/
theorem filter_linesOf {row : String} (h : isVerdictRow row = true → Unbroken row) :
    (linesOf row).filter isVerdict =
      (if isVerdictRow row then [row.toList] else []) ++ (linesOf row).tail.filter isVerdict := by
  obtain ⟨first, rest, hlines, hfirst⟩ := exists_linesOf row
  rw [hlines, List.tail_cons, List.filter_cons, hfirst]
  split
  next hverdict =>
    rw [linesOf_unbroken (h hverdict)] at hlines
    rw [(List.cons.inj hlines).1, List.singleton_append]
  next => rfl

theorem forges_iff {row : String} : Forges row ↔ (linesOf row).tail.filter isVerdict ≠ [] := by
  simp [Forges, List.filter_eq_nil_iff]

theorem not_forges_of_unbroken {row : String} (h : Unbroken row) : ¬Forges row := by
  simp [Forges, linesOf_unbroken h]

/-- A part is added to no element exactly if the list stays the same. -/
theorem flatMap_append_eq_iff {α β : Type} {items : List α} {own more : α → List β} :
    (items.flatMap fun item => own item ++ more item) = items.flatMap own ↔
      ∀ item ∈ items, more item = [] := by
  constructor
  · intro h
    have hlength : (items.flatMap fun item => own item ++ more item).length =
        (items.flatMap own).length + (items.flatMap more).length := by
      clear h
      induction items with
      | nil => rfl
      | cons item items ih =>
        simp only [List.flatMap_cons, List.length_append, ih]
        omega
    rw [h, Nat.left_eq_add, List.length_eq_zero_iff, List.flatMap_eq_nil_iff] at hlength
    exact hlength
  · intro h
    induction items with
    | nil => rfl
    | cons item items ih =>
      obtain ⟨hitem, hitems⟩ := List.forall_mem_cons.mp h
      rw [List.flatMap_cons, List.flatMap_cons, hitem, List.append_nil, ih hitems]

theorem map_filter_eq_flatMap {α β : Type} (p : α → Bool) (f : α → β) (items : List α) :
    (items.filter p).map f = items.flatMap fun item => if p item then [f item] else [] := by
  induction items with
  | nil => rfl
  | cons item items ih =>
    rw [List.filter_cons, List.flatMap_cons, ← ih]
    split <;> rfl

/-- The lines of rows that give a verdict are the rows that start as one, unless one is forged. -/
theorem verdictLines_text_iff {rows : List String}
    (h : ∀ row ∈ rows, isVerdictRow row = true → Unbroken row) :
    verdictLines (text rows) = (rows.filter isVerdictRow).map String.toList ↔
      ∀ row ∈ rows, ¬Forges row := by
  have hlines : verdictLines (text rows) = rows.flatMap fun row =>
      (if isVerdictRow row then [row.toList] else []) ++ (linesOf row).tail.filter isVerdict := by
    have hblank : isVerdict [] = false := by decide
    rw [verdictLines, linesOf_text, List.filter_append, List.filter_flatMap,
      List.filter_cons_of_neg (by simp [hblank]), List.filter_nil, List.append_nil]
    exact List.flatMap_congr fun row hrow => filter_linesOf (h row hrow)
  rw [hlines, map_filter_eq_flatMap, flatMap_append_eq_iff]
  simp only [forges_iff, not_not]

/-! ## What a report states -/

section States

variable {report : Report}

/-- No verdict starts as the conclusion on what was found. -/
theorem not_statement_verdict (record : EvidenceRecord) :
    ¬statement.toList <+: (verdict record).toList := by
  rw [verdict, String.toList_append]
  exact not_prefix_of_differ (by cases record.found <;> decide) _

theorem not_statement_results {row : String} (hrow : row ∈ results report) :
    ¬statement.toList <+: row.toList := by
  have hordinary (h : Ordinary row) : ¬statement.toList <+: row.toList :=
    h statement (by decide)
  simp only [results, List.mem_append, List.mem_flatMap, List.mem_cons, List.not_mem_nil,
    or_false] at hrow
  rcases hrow with (hheading | ⟨record, -, hbanner⟩) | rfl | rfl | rfl
  · exact hordinary (ordinary_heading (ordinary_ofList (by decide)) row hheading)
  · obtain ⟨hsummary, hchannels⟩ := ordinary_evidence record
    simp only [banner, List.mem_cons] at hbanner
    rcases hbanner with rfl | rfl | rfl | hchannel
    · exact hordinary (by decide)
    · exact not_statement_verdict record
    · exact hordinary hsummary
    · exact hordinary (hchannels row hchannel)
  · exact hordinary (by decide)
  · exact hordinary (ordinary_keywordRow (by decide) _)
  · exact hordinary (ordinary_keywordRow (by decide) _)

/-- Of the rows of a report only what was found starts as the conclusion on that. -/
theorem found_of_statement_prefix {row : String} (hrow : row ∈ detection report)
    (hstart : statement.toList <+: row.toList) : keywordsOf report.found ≠ [] := by
  have hordinary : ¬Ordinary row := fun h => h statement (by decide) hstart
  have htitle : ∀ row ∈ title "ANDROID SDK DETECTION REPORT", Ordinary row := by decide
  simp only [detection, List.mem_append] at hrow
  rcases hrow with ((((((hrow | hrow) | hrow) | hrow) | hrow) | hrow) | hrow) | hrow
  · exact absurd (htitle row hrow) hordinary
  · exact absurd (ordinary_application report row hrow) hordinary
  · exact absurd hstart (not_statement_results hrow)
  · exact absurd (ordinary_sdks report row hrow) hordinary
  · exact absurd (ordinary_libraryNames report row hrow) hordinary
  · exact absurd (ordinary_methods report row hrow) hordinary
  · exact ((conclusion_cases report row hrow).resolve_left hordinary).1
  · exact absurd (ordinary_technicalDetails report row hrow) hordinary

theorem foundRow_mem (h : keywordsOf report.found ≠ []) : foundRow report ∈ detection report := by
  have hconclusion : foundRow report ∈ conclusion report := by
    rw [conclusion]
    refine List.mem_append_right _ ?_
    rw [if_neg (by simpa using h)]
    simp [foundRow, statement, String.append_assoc]
  simp [detection, hconclusion]

theorem found_ne_nil_iff : keywordsOf report.found ≠ [] ↔
    ∃ record ∈ report.evidence, record.found = true := by
  simp [keywordsOf, Report.found]

theorem render_text {keywords : List String} (h : report.mode = .detection keywords) :
    report.render .text = text (detection report) := by
  rw [Report.render, Report.layoutText, h]

theorem verdictLines_iff (hkeywords : ∀ record ∈ report.evidence, Unbroken record.keyword) :
    verdictLines (text (detection report)) = report.evidence.map (fun r => (verdict r).toList) ↔
      ∀ row ∈ detection report, ¬Forges row := by
  have hverdict : ∀ row ∈ detection report, isVerdictRow row = true → Unbroken row := by
    intro row hrow hstarts
    have hmem : row ∈ (detection report).filter isVerdictRow := List.mem_filter.mpr ⟨hrow, hstarts⟩
    rw [filter_detection] at hmem
    obtain ⟨record, hrecord, rfl⟩ := List.mem_map.mp hmem
    exact unbroken_append.mpr ⟨by cases record.found <;> decide, hkeywords record hrecord⟩
  have hlines := verdictLines_text_iff hverdict
  rwa [filter_detection, List.map_map] at hlines

/-- Without breaks in rows a line tells what was found exactly if something was. -/
theorem statesMatch_iff (h : ∀ row ∈ detection report, Unbroken row) :
    (∃ line ∈ linesOf (text (detection report)), StatesMatch line) ↔
      ∃ record ∈ report.evidence, record.found = true := by
  rw [← found_ne_nil_iff, linesOf_text]
  constructor
  · rintro ⟨line, hline, app, found, rfl⟩
    rcases List.mem_append.mp hline with hline | hline
    · obtain ⟨row, hrow, hline⟩ := List.mem_flatMap.mp hline
      rw [linesOf_unbroken (h row hrow), List.mem_singleton] at hline
      refine found_of_statement_prefix hrow ?_
      rw [← hline]
      simp only [String.append_assoc]
      rw [String.toList_append]
      exact List.prefix_append _ _
    · simp [statement] at hline
  · intro hfound
    have hmem := foundRow_mem hfound
    refine ⟨(foundRow report).toList, List.mem_append_left _ ?_, _, _, rfl⟩
    refine List.mem_flatMap.mpr ⟨_, hmem, ?_⟩
    rw [linesOf_unbroken (h _ hmem)]
    exact List.mem_singleton_self _

end States

/-- The lines of a report that give a verdict are those of the records, in order, exactly if no row
forges one: if no break within a row starts a line that looks like a verdict. Then those that tell
of a keyword that was found, and those that tell of one that was not, are those of the records with
this verdict. So it is where no line breaks off within a text that the report quotes, and there it
says that the application holds what was searched for exactly if some keyword was found. Two reports
that forge no verdict have the same verdict lines if their records have the same verdicts. -/
theorem verdict_lines {report : Report} {keywords : List String}
    (hmode : report.mode = .detection keywords)
    (hkeywords : ∀ record ∈ report.evidence, Unbroken record.keyword) :
    (verdictLines (report.render .text) = report.evidence.map (fun r => (verdict r).toList) ↔
      ∀ row ∈ detection report, ¬Forges row) ∧
    ((∀ row ∈ detection report, ¬Forges row) → ∀ found,
      (linesOf (report.render .text)).filter (gives found) =
        (report.evidence.filter fun r => r.found == found).map fun r => (verdict r).toList) ∧
    (NoBreaks report → (∀ row ∈ detection report, ¬Forges row) ∧
      ((∃ line ∈ linesOf (report.render .text), StatesMatch line) ↔
        ∃ record ∈ report.evidence, record.found = true)) ∧
    ∀ (other : Report) (others : List String), other.mode = .detection others →
      other.evidence.map (fun r => (r.keyword, r.found)) =
        report.evidence.map (fun r => (r.keyword, r.found)) →
      (∀ row ∈ detection report, ¬Forges row) → (∀ row ∈ detection other, ¬Forges row) →
      verdictLines (other.render .text) = verdictLines (report.render .text) := by
  rw [render_text hmode]
  have hlines := verdictLines_iff hkeywords
  refine ⟨hlines, fun hforges found => ?_, fun hquoted => ?_, ?_⟩
  · have hfilter : (linesOf (text (detection report))).filter (gives found) =
        (verdictLines (text (detection report))).filter (gives found) := by
      rw [verdictLines, List.filter_filter]
      refine List.filter_congr fun line _ => ?_
      have hverdict : gives found line = true → isVerdict line = true :=
        fun h => isVerdict_iff.mpr ⟨found, gives_iff.mp h⟩
      cases hgives : gives found line <;> simp_all
    rw [hfilter, hlines.mpr hforges, List.filter_map]
    refine congrArg _ (List.filter_congr fun record _ => ?_)
    exact gives_verdict found record
  · have hunbroken := unbroken_detection hkeywords hquoted
    exact ⟨fun row hrow => not_forges_of_unbroken (hunbroken row hrow), statesMatch_iff hunbroken⟩
  · intro other others hother hsame hforges hforges'
    have hkeywords' : ∀ record ∈ other.evidence, Unbroken record.keyword := by
      intro record hrecord
      have hpair := List.mem_map_of_mem (f := fun r => (r.keyword, r.found)) hrecord
      rw [hsame] at hpair
      obtain ⟨record', hrecord', heq⟩ := List.mem_map.mp hpair
      rw [← (Prod.mk.inj heq).1]
      exact hkeywords record' hrecord'
    have hverdicts (records : List EvidenceRecord) :
        records.map (fun r => (verdict r).toList) =
          (records.map fun r => (r.keyword, r.found)).map
            fun pair => (verdictMark pair.2 ++ pair.1).toList := by
      rw [List.map_map]
      rfl
    rw [render_text hother, hlines.mpr hforges, (verdictLines_iff hkeywords').mpr hforges',
      hverdicts, hverdicts, hsame]

/-- A report on one keyword with some hits, of a package with a label. -/
def labelled (label : String) (hits : Nat) : Report where
  mode := .detection ["nutrient"]
  generatedAt :=
    { year := 2026, month := 3, day := 1, hour := 12, minute := 30, second := 5
      nanosecond := 0, valid := by decide }
  toolVersion := "0.3.0"
  decompiler := "prebuilt"
  codeScanCap := 50
  packageListingLimit := 20
  source := "t"
  packageDigest := none
  metadata :=
    { facts :=
        { packageId := "com.example", displayName := label, versionName := "1", versionCode := "1"
          minSdk := "21", targetSdk := "34" }
      versionStamps := []
      permissions := []
      features := []
      buildInfo := []
      kotlin := { present := false, version := none }
      assets := { files := 0, bytes := 0 }
      resources := { files := 0, bytes := 0 }
      locales := []
      codePackages := [] }
  libraries := []
  architectures := []
  sdks := []
  evidence :=
    [((EvidenceDraft.start "nutrient").record .manifest { count := hits, files := [] }).finish]
  competitorMatches := []
  competitorsChecked := 0
  merge := none
  stages := []

theorem noBreaks_labelled {label : String} {hits : Nat} (h : Unbroken label)
    (hsummary : ∀ record ∈ (labelled label hits).evidence, Unbroken record.summary) :
    NoBreaks (labelled label hits) where
  packageId := unbroken_ofList (by decide)
  displayName := h
  versionName := unbroken_ofList (by decide)
  versionCode := unbroken_ofList (by decide)
  minSdk := unbroken_ofList (by decide)
  targetSdk := unbroken_ofList (by decide)
  source := unbroken_ofList (by decide)
  toolVersion := unbroken_ofList (by decide)
  decompiler := unbroken_ofList (by decide)
  digest := by simp [labelled]
  merge := by simp [labelled]
  summaries := hsummary
  sdks := by simp [labelled]
  libraries := by simp [labelled]
  architectures := by simp [labelled]

theorem unbroken_keyword_labelled (label : String) (hits : Nat) :
    ∀ record ∈ (labelled label hits).evidence, Unbroken record.keyword := by
  intro record hrecord
  obtain rfl := List.mem_singleton.mp hrecord
  exact unbroken_ofList (by decide)

theorem verdict_lines_labelled :
    (labelled "App" 1).mode = .detection ["nutrient"] ∧
    (∀ record ∈ (labelled "App" 1).evidence, Unbroken record.keyword) ∧
    NoBreaks (labelled "App" 1) ∧ NoBreaks (labelled "Other" 1) ∧
    verdictLines ((labelled "App" 1).render .text) = ["  [FOUND]     nutrient".toList] ∧
    (∃ line ∈ linesOf ((labelled "App" 1).render .text), StatesMatch line) ∧
    verdictLines ((labelled "Other" 1).render .text) =
      verdictLines ((labelled "App" 1).render .text) := by
  have hkeywords := unbroken_keyword_labelled "App" 1
  have happ : NoBreaks (labelled "App" 1) := noBreaks_labelled (by decide) (by decide +kernel)
  have hother : NoBreaks (labelled "Other" 1) := noBreaks_labelled (by decide) (by decide +kernel)
  obtain ⟨hlines, -, hquoted, hsame⟩ := verdict_lines rfl hkeywords
  obtain ⟨hforges, hstates⟩ := hquoted happ
  have hforges' := (verdict_lines rfl (unbroken_keyword_labelled "Other" 1)).2.2.1 hother
  refine ⟨rfl, hkeywords, happ, hother, ?_, ?_, ?_⟩
  · rw [hlines.mpr hforges]
    decide
  · exact hstates.mpr ⟨_, List.mem_singleton_self _, by decide⟩
  · exact hsame _ _ rfl rfl hforges hforges'.1

/-- A label with breaks in it, as a file of texts may hold it. -/
def forgedLabel : String :=
  "App\n  [FOUND]     acme\n  The application App contains SDK(s) matching: acme."

/-- Nothing was found, but lines of the text tell otherwise. -/
theorem label_forges_verdict :
    (∀ record ∈ (labelled forgedLabel 0).evidence,
      Unbroken record.keyword ∧ record.found = false) ∧
    "  [FOUND]     acme".toList ∈ verdictLines ((labelled forgedLabel 0).render .text) ∧
    ∃ line ∈ linesOf ((labelled forgedLabel 0).render .text), StatesMatch line := by
  have hrow : field "Name" forgedLabel ∈ detection (labelled forgedLabel 0) := by
    simp [detection, application, labelled]
  have hlines {line : List Char} (h : line ∈ linesOf (field "Name" forgedLabel)) :
      line ∈ linesOf ((labelled forgedLabel 0).render .text) := by
    rw [render_text rfl, linesOf_text]
    exact List.mem_append_left _ (List.mem_flatMap.mpr ⟨_, hrow, h⟩)
  refine ⟨fun record hrecord => ⟨unbroken_keyword_labelled _ _ record hrecord, ?_⟩, ?_, ?_⟩
  · obtain rfl := List.mem_singleton.mp hrecord
    rfl
  · exact List.mem_filter.mpr ⟨hlines (by decide), by decide⟩
  · exact ⟨_, hlines (by decide), "App", "acme.", rfl⟩

end SdkEvidence.Layout
