import ContractAudit.Audit.Assessment
import ContractAudit.Proofs.OrderedMaps
import ContractAudit.Proofs.RiskScores
import ContractAudit.Rule.Catalogue
import ContractAudit.Scan.Report
import ContractAudit.Scan.Statistics

/-!
# The order of findings

What an audit makes of its findings depends on how many there are of each severity, and what a scan
makes of them on how many there are of each severity and rule.  In which order they come, and in
which files, makes no difference.

* `SeverityCounts.ofFindings_congr`: the counts of findings.
* `securityScore_congr`: the score that findings leave.
* `ScanResults.SameKinds`: the findings of two scans are of the same rules and severities.

The main statement is `reordered_findings`.
-/

namespace ContractAudit

theorem SeverityCounts.ofList_congr {l l' : List Severity} (h : l.Perm l') :
    ofList l = ofList l' := by
  simp only [ofList, h.count_eq]

theorem SeverityCounts.ofFindings_congr {fs fs' : List Finding}
    (h : (fs.map (·.severity)).Perm (fs'.map (·.severity))) : ofFindings fs = ofFindings fs' :=
  ofList_congr h

/-- penalties are added up in any order, since only their exact sum counts -/
theorem securityScore_congr {α : Type} [ScoreNumber α] {l l' : List Severity} (h : l.Perm l') :
    (securityScore l : α) = securityScore l' := by
  rw [securityScore_eq, securityScore_eq, SeverityCounts.ofList_congr h]

/-! ## scans -/

/-- the findings of two scans are of the same rules and severities, in some order and some files -/
def ScanResults.SameKinds (r r' : ScanResults) : Prop :=
  (r.allFindings.map fun f => (f.ruleId, f.severity)).Perm
    (r'.allFindings.map fun f => (f.ruleId, f.severity))

namespace ScanResults.SameKinds

variable {r r' : ScanResults} (h : r.SameKinds r')
include h

theorem counts_eq :
    SeverityCounts.ofFindings r.allFindings = SeverityCounts.ofFindings r'.allFindings := by
  have hseverity := h.map (·.2)
  rw [List.map_map, List.map_map] at hseverity
  exact SeverityCounts.ofFindings_congr hseverity

theorem tally_eq : Ordered.tally (r.allFindings.map (·.ruleId)) =
    Ordered.tally (r'.allFindings.map (·.ruleId)) := by
  have hrule := h.map (·.1)
  rw [List.map_map, List.map_map] at hrule
  exact Ordered.tally_congr hrule

theorem summary_eq (hfiles : r.files.length = r'.files.length) :
    (ScanReport.ofResults r).summary = (ScanReport.ofResults r').summary := by
  unfold ScanReport.ofResults
  rw [h.counts_eq, h.tally_eq, hfiles]

theorem recommendations_eq :
    (ScanReport.ofResults r).recommendations = (ScanReport.ofResults r').recommendations := by
  unfold ScanReport.ofResults
  rw [h.counts_eq]

theorem statistics_eq (hfiles : r.files.length = r'.files.length) (totalFiles : Nat) :
    ScanStatistics.ofResults totalFiles r = ScanStatistics.ofResults totalFiles r' := by
  unfold ScanStatistics.ofResults
  rw [h.counts_eq, h.tally_eq, hfiles]

end ScanResults.SameKinds

/-- **The order of findings makes no difference.**  Findings of the same severities leave the same
security score, and with the same metrics they come to the same risk and the same recommendations.
Results of as many files, whose findings are of the same rules and severities, come to the same
summary, recommendations and statistics, whatever the files are, and whichever findings each of
them has in whichever order. -/
theorem reordered_findings :
    (∀ fs fs' : List Finding, (fs.map (·.severity)).Perm (fs'.map (·.severity)) →
      (securityScore (fs.map (·.severity)) : Float) = securityScore (fs'.map (·.severity)) ∧
      ∀ m : AuditMetrics Float, RiskAssessment.ofFindings fs m = RiskAssessment.ofFindings fs' m ∧
        auditRecommendations fs m = auditRecommendations fs' m) ∧
    ∀ r r' : ScanResults, r.files.length = r'.files.length →
      ((r.files.flatMap (·.2)).map fun f => (f.ruleId, f.severity)).Perm
        ((r'.files.flatMap (·.2)).map fun f => (f.ruleId, f.severity)) →
      (ScanReport.ofResults r).summary = (ScanReport.ofResults r').summary ∧
      (ScanReport.ofResults r).recommendations = (ScanReport.ofResults r').recommendations ∧
      ∀ totalFiles,
        ScanStatistics.ofResults totalFiles r = ScanStatistics.ofResults totalFiles r' := by
  refine ⟨fun fs fs' h => ?_, fun r r' hfiles hkinds => ?_⟩
  · have hcounts := SeverityCounts.ofFindings_congr h
    refine ⟨securityScore_congr h, fun m => ⟨?_, ?_⟩⟩
    · rw [RiskAssessment.ofFindings, hcounts, RiskAssessment.ofFindings]
    · rw [auditRecommendations, hcounts, auditRecommendations]
  · have h : r.SameKinds r' := hkinds
    exact ⟨h.summary_eq hfiles, h.recommendations_eq, h.statistics_eq hfiles⟩

/-- two findings in one file, and the same in two files the other way around: two rules with as many
findings are named in the same order -/
theorem reordered_findings_in_other_files :
    let stamp := Finding.ofLine Rule.timestampDependence.about 2 "now".toList
    let access := Finding.ofLine Rule.missingAccessControl.about 1 "function f() public".toList
    let r : ScanResults := ⟨[(⟨"a"⟩, [stamp, access]), (⟨"b"⟩, [])]⟩
    let r' : ScanResults := ⟨[(⟨"c/d"⟩, [access]), (⟨"e"⟩, [stamp])]⟩
    let m : AuditMetrics Float := ⟨2, 75.0, 70.0, 95.0, 80.0, 0.0⟩
    r.allFindings.map (·.severity) = [.medium, .critical] ∧
    r'.allFindings.map (·.severity) = [.critical, .medium] ∧
    RiskAssessment.ofFindings r.allFindings m = RiskAssessment.ofFindings r'.allFindings m ∧
    r.files.length = r'.files.length ∧ r.SameKinds r' ∧
    (ScanReport.ofResults r).summary = (ScanReport.ofResults r').summary ∧
    (ScanStatistics.ofResults 3 r).mostCommon = [("OMEGA-003", 1), ("OMEGA-005", 1)] ∧
    (ScanStatistics.ofResults 3 r').mostCommon = [("OMEGA-003", 1), ("OMEGA-005", 1)] := by
  intro stamp access r r' m
  have hseverity : (r.allFindings.map (·.severity)).Perm (r'.allFindings.map (·.severity)) :=
    .swap _ _ []
  have hkinds : r.SameKinds r' := .swap _ _ []
  obtain ⟨hsummary, -, hstatistics⟩ := reordered_findings.2 r r' rfl hkinds
  have hcommon : (ScanStatistics.ofResults 3 r).mostCommon =
      [("OMEGA-003", 1), ("OMEGA-005", 1)] := by
    have htally : Ordered.tally (r.allFindings.map (·.ruleId)) =
        [("OMEGA-003", 1), ("OMEGA-005", 1)] := by decide +kernel
    show (Ordered.tally (r.allFindings.map (·.ruleId))).mergeSort _ = _
    rw [htally]
    exact List.mergeSort_of_pairwise (by decide)
  refine ⟨rfl, rfl, ((reordered_findings.1 _ _ hseverity).2 m).1, rfl, hkinds, hsummary, hcommon, ?_⟩
  rw [← hstatistics]
  exact hcommon

end ContractAudit
