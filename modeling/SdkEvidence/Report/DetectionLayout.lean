import SdkEvidence.Report.Section

/-!
# The detection layout

One verdict for each requested keyword with what each channel counted, and a conclusion.
-/
namespace SdkEvidence.Layout

/-- What stands before the details of a verdict. -/
def indent : String := String.ofList (List.replicate 14 ' ')

/-- What a channel counted. -/
def channelRow (evidence : ChannelEvidence) : String :=
  indent ++ "- " ++ padded 30 evidence.channel.label ++ " "
    ++ (if evidence.scanned then toString evidence.count else "not present in package")

/-- How a verdict starts. -/
def verdictMark (found : Bool) : String :=
  if found then "  [FOUND]     " else "  [NOT FOUND] "

/-- The verdict on a keyword. -/
def verdict (record : EvidenceRecord) : String :=
  verdictMark record.found ++ record.keyword

/-- The verdict on a keyword with its evidence. -/
def banner (record : EvidenceRecord) : List String :=
  "" :: verdict record :: (indent ++ record.summary) :: record.channels.map channelRow

/-- The keywords of some records. -/
def keywordsOf (records : List EvidenceRecord) : List String :=
  records.map EvidenceRecord.keyword

/-- A row that counts and lists keywords. -/
def keywordRow (label : String) (keywords : List String) : String :=
  "  " ++ label ++ " (" ++ toString keywords.length ++ "): " ++ listed keywords

/-- The verdicts, and which keywords were found. -/
def results (report : Report) : List String :=
  heading "DETECTION RESULTS" ++ report.evidence.flatMap banner
    ++ ["", keywordRow "Found" (keywordsOf report.found),
        keywordRow "Not found" (keywordsOf report.notFound)]

/-- The names of the native libraries. -/
def libraryNames (report : Report) : List String :=
  heading "NATIVE LIBRARIES" ++ ["  " ++ libraryCount report]
    ++ (sortedDistinct (report.libraries.map NativeLibrary.name)).map fun name => "    " ++ name

/-- How each channel searches, and what the search may miss. -/
def methods (report : Report) : List String :=
  heading "DETECTION METHODS"
    ++ EvidenceChannel.all.mapIdx (fun i channel =>
        "  " ++ toString (i + 1) ++ ". " ++ channel.method)
    ++ ["  All searches are literal and case-insensitive. Code content search reads at most",
        "  " ++ toString report.codeScanCap
          ++ " candidate files per keyword and can miss matches outside them."]

/-- What follows from the verdicts. -/
def conclusion (report : Report) : List String :=
  let app := report.metadata.facts.packageId
  let found := keywordsOf report.found
  heading "CONCLUSION"
    ++ (if found.isEmpty then
        ["  No evidence of " ++ ", ".intercalate (keywordsOf report.evidence) ++ " was found in "
            ++ app ++ " across all six detection channels.",
          "  Absence of evidence is not proof of absence: obfuscated or renamed code",
          "  may not be detected."]
      else
        ["  The application " ++ app ++ " contains SDK(s) matching: " ++ ", ".intercalate found
            ++ ".",
          "  See the per-channel evidence above for where each match was observed."])

/-- The rows of the detection layout. -/
def detection (report : Report) : List String :=
  title "ANDROID SDK DETECTION REPORT" ++ application report ++ results report ++ sdks report
    ++ libraryNames report ++ methods report ++ conclusion report ++ technicalDetails report

end SdkEvidence.Layout
