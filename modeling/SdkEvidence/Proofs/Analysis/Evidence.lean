import SdkEvidence.Proofs.Analysis.Trees
import SdkEvidence.Proofs.Dictionary
import SdkEvidence.Proofs.Evidence.Scan
import SdkEvidence.Proofs.Mode

/-!
# Evidence by request

A report tells the evidence for each requested keyword once and in the order of the request, and
what it tells of a keyword does not depend on the others (`analyzeTrees_evidence`).
-/
namespace SdkEvidence

theorem keyword_scan (limits : ScanLimits) (index : PackageIndex) (keyword : String) :
    (scan limits index keyword).keyword = keyword := by
  rw [scan_eq_run]
  exact EvidenceDraft.keyword_run keyword _

theorem map_keyword_scan (limits : ScanLimits) (index : PackageIndex) (keywords : List String) :
    (keywords.map (scan limits index)).map EvidenceRecord.keyword = keywords := by
  rw [List.map_map]
  exact List.map_id'' (keyword_scan limits index) keywords

/-- Records are taken out by the distinct keywords under which they were filed. -/
theorem Findings.takeAll_evidence (fs : FileSystem) (c : Configuration) {mode : Mode}
    (decompiled raw : PathText) (hmode : mode.keywords.Nodup) :
    (ofTrees fs c mode decompiled raw).evidence.takeAll mode.keywords
      = mode.keywords.map (scan c.limits (.build fs decompiled raw)) :=
  Dictionary.takeAll_insertAll hmode _

namespace Report

theorem found_sublist (report : Report) :
    (report.found.map EvidenceRecord.keyword).Sublist
      (report.evidence.map EvidenceRecord.keyword) :=
  List.filter_sublist.map _

theorem notFound_sublist (report : Report) :
    (report.notFound.map EvidenceRecord.keyword).Sublist
      (report.evidence.map EvidenceRecord.keyword) :=
  List.filter_sublist.map _

/-- Each record tells of a find or of none. -/
theorem found_append_notFound_perm (report : Report) :
    (report.found ++ report.notFound).Perm report.evidence :=
  List.filter_append_perm _ _

end Report

namespace Analyzer

/-- A search examines each of its keywords in the same two trees. -/
theorem runIn_analyzeTrees_keywords (a : Analyzer) {mode : Mode} {decompiled : PathText}
    (raw : PathText) {fs : FileSystem} (hdir : fs.isDirectory decompiled = true)
    (hmode : mode.keywords.Nodup) :
    ∃ report, (a.analyzeTrees mode decompiled raw).runIn fs = (.ok report, fs) ∧
      report.evidence
        = mode.keywords.map (scan a.configuration.limits (.build fs decompiled raw)) :=
  ⟨_, runIn_analyzeTrees hdir, Findings.takeAll_evidence fs a.configuration decompiled raw hmode⟩

/-- Keywords make a search exactly if there are any and none is blank. The search is for each of
them trimmed and once, where it first stands, and its own keywords make it again. The report on two
trees has one record for each keyword, in order, which is the only record of a search for that
keyword alone, at whatever moment. The keywords that were found and those that were not are told in
order too, and together they are all. -/
theorem analyzeTrees_evidence (a : Analyzer) (later : Timestamp) (fs : FileSystem)
    (decompiled raw : PathText) (keywords : List String) :
    ((∃ mode, Mode.detect keywords = .ok mode)
      ↔ keywords ≠ [] ∧ ∀ keyword ∈ keywords, Text.trimmed keyword ≠ "") ∧
    ∀ mode, Mode.detect keywords = .ok mode →
      mode = .detection (keywords.map Text.trimmed).eraseDups ∧
      Mode.detect mode.keywords = .ok mode ∧
      (fs.isDirectory decompiled = true →
        ∃ report, (a.analyzeTrees mode decompiled raw).runIn fs = (.ok report, fs) ∧
          report.evidence.map EvidenceRecord.keyword = mode.keywords ∧
          (∀ (i : Nat) (keyword : String), mode.keywords[i]? = some keyword →
            ∃ record single alone,
              report.evidence[i]? = some record ∧
              Mode.detect [keyword] = .ok single ∧
              ({ a with moment := later }.analyzeTrees single decompiled raw).runIn fs
                = (.ok alone, fs) ∧
              alone.evidence = [record]) ∧
          (report.found.map EvidenceRecord.keyword).Sublist mode.keywords ∧
          (report.notFound.map EvidenceRecord.keyword).Sublist mode.keywords ∧
          (report.found.map EvidenceRecord.keyword
            ++ report.notFound.map EvidenceRecord.keyword).Perm mode.keywords) := by
  refine ⟨Mode.detect_isOk_iff, fun mode hmode => ⟨Mode.eq_of_detect hmode,
    Mode.detect_keywords hmode, fun hdir => ?_⟩⟩
  obtain ⟨report, hrun, hevidence⟩ :=
    runIn_analyzeTrees_keywords a raw hdir (Mode.nodup_keywords hmode)
  have hkeywords : report.evidence.map EvidenceRecord.keyword = mode.keywords := by
    rw [hevidence, map_keyword_scan]
  refine ⟨report, hrun, hkeywords, fun i keyword hi => ?_, ?_, ?_, ?_⟩
  · have hsingle : Mode.detect [keyword] = .ok (.detection [keyword]) := by
      refine Mode.detect_of_trimmed (List.cons_ne_nil _ _) (List.nodup_singleton _) ?_
      intro given hgiven
      obtain rfl := List.mem_singleton.mp hgiven
      exact Mode.of_mem_keywords hmode (List.mem_of_getElem? hi)
    obtain ⟨alone, hrun', halone⟩ := runIn_analyzeTrees_keywords { a with moment := later } raw
      hdir (Mode.nodup_keywords hsingle)
    refine ⟨_, _, alone, ?_, hsingle, hrun', halone⟩
    rw [hevidence, List.getElem?_map, hi, Option.map_some]
  · exact hkeywords ▸ report.found_sublist
  · exact hkeywords ▸ report.notFound_sublist
  · rw [← List.map_append, ← hkeywords]
    exact report.found_append_notFound_perm.map _

/-- A search for two names, one given twice, in a package that has one of them. -/
theorem analyzeTrees_evidence_two_names :
    Mode.detect ["y", " x", "y "] = .ok (.detection ["y", "x"]) ∧
    Copied.files.isDirectory "/t" = true ∧
    ∃ report,
      ((ofConfiguration .default Copied.noon).analyzeTrees (.detection ["y", "x"]) "/t" "/c").runIn
        Copied.files = (.ok report, Copied.files) ∧
      report.evidence.map EvidenceRecord.keyword = ["y", "x"] ∧
      (report.found.map EvidenceRecord.keyword
        ++ report.notFound.map EvidenceRecord.keyword).Perm ["y", "x"] := by
  have hmode : Mode.detect ["y", " x", "y "] = .ok (.detection ["y", "x"]) := by decide
  have hdir : Copied.files.isDirectory "/t" = true := by decide
  obtain ⟨-, -, hreport⟩ := (analyzeTrees_evidence (ofConfiguration .default Copied.noon)
    Copied.evening Copied.files "/t" "/c" ["y", " x", "y "]).2 _ hmode
  obtain ⟨report, hrun, hkeywords, -, -, -, hall⟩ := hreport hdir
  exact ⟨hmode, hdir, report, hrun, hkeywords, hall⟩

end Analyzer
end SdkEvidence
