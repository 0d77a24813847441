import ContractAudit.Proofs.OrderedMaps
import ContractAudit.Proofs.PathOrder
import ContractAudit.Proofs.TextOrder
import ContractAudit.Scan.Report

/-!
# What a scan report keeps of its results

The numbers of a report are counted in different ways, and its findings are listed by the text of
their paths where the results have them by the components.  Nothing is lost on the way, if the paths
are texts.

* `SeverityCounts.get_ofFindings`, `SeverityCounts.total_ofFindings`: the counts of severities.
* `ScanReport.mem_ruleBreakdown_iff`: the numbers of the rules that have findings.
* `ScanReport.detailedFindings_perm`: every file keeps its findings under the text of its path.

The main statement is `report_keeps_findings`.
-/

namespace ContractAudit

open Std

/-! ## counts -/

namespace SeverityCounts

theorem total_eq_sum (n : SeverityCounts) : n.total = (Severity.descending.map n.get).sum := by
  simp only [total, Severity.descending, List.map_cons, List.map_nil, List.sum_cons, List.sum_nil,
    get]
  omega

theorem total_ofList (l : List Severity) : (ofList l).total = l.length := by
  induction l with
  | nil => rfl
  | cons v l ih =>
    rw [total, ofList] at ih ⊢
    simp only [List.count_cons, List.length_cons] at ih ⊢
    cases v <;> simp <;> omega

theorem get_ofFindings (fs : List Finding) (v : Severity) :
    (ofFindings fs).get v = fs.countP (·.severity == v) := by
  rw [ofFindings, get_ofList, List.count_eq_countP, List.countP_map]
  rfl

theorem total_ofFindings (fs : List Finding) : (ofFindings fs).total = fs.length := by
  rw [ofFindings, total_ofList, List.length_map]

end SeverityCounts

/-! ## reports -/

namespace ScanReport

theorem sum_ruleBreakdown (r : ScanResults) :
    ((ofResults r).summary.ruleBreakdown.map (·.2)).sum = r.allFindings.length := by
  show ((Ordered.tally _).map (·.2)).sum = _
  rw [Ordered.sum_tally, List.length_map]

theorem mem_ruleBreakdown_iff {r : ScanResults} {id : String} {n : Nat} :
    (id, n) ∈ (ofResults r).summary.ruleBreakdown ↔
      n = r.allFindings.countP (·.ruleId == id) ∧ 0 < n := by
  show (id, n) ∈ Ordered.tally _ ↔ _
  rw [Ordered.mem_tally_iff, List.count_eq_countP, List.countP_map]
  rfl

/-- paths with other components are spelled in another way -/
theorem detailedFindings_perm {r : ScanResults} (hr : Ordered.Increases r.files)
    (hutf8 : ∀ x ∈ r.files, x.1.raw.IsUtf8) :
    (ofResults r).detailedFindings.Perm (r.files.map fun x => (x.1.text, x.2)) := by
  refine Ordered.ofList_perm (List.pairwise_map.2 (hr.imp_of_mem fun {x y} hx hy hxy htext => ?_))
  have hself : compare x.1 x.1 = .eq := ReflCmp.compare_self
  have hpath : x.1 = y.1 := congrArg Path.ofRaw
    ((hutf8 x hx).eq_of_text (hutf8 y hy) (LawfulEqOrd.eq_of_compare htext))
  rw [← hpath, hself] at hxy
  cases hxy

theorem detailedFindings_increase (r : ScanResults) :
    (ofResults r).detailedFindings.Pairwise fun x y => utf8Bytes x.1 < utf8Bytes y.1 := by
  have hlist : Ordered.Increases (ofResults r).detailedFindings := Ordered.increases_ofList _
  exact hlist.imp utf8Bytes_lt_of_compare

theorem sum_detailedFindings {r : ScanResults} (hr : Ordered.Increases r.files)
    (hutf8 : ∀ x ∈ r.files, x.1.raw.IsUtf8) :
    ((ofResults r).detailedFindings.map (·.2.length)).sum = r.allFindings.length := by
  rw [((detailedFindings_perm hr hutf8).map _).sum_nat, List.map_map, ScanResults.allFindings,
    List.length_flatMap]
  rfl

end ScanReport

/-- **A scan report keeps what is in the results**, the paths of which are texts.  Its files are
those of the results, and whichever way its findings are counted, all of them are there.  Each
severity and each rule has the number of its findings, where only rules with findings are named.
The findings of every file are listed unchanged under the text of its path, in the order of the
bytes of these texts. -/
theorem report_keeps_findings {r : ScanResults} (hr : Ordered.Increases r.files)
    (hutf8 : ∀ x ∈ r.files, x.1.raw.IsUtf8) :
    let report := ScanReport.ofResults r
    let summary := report.summary
    let found := r.files.flatMap (·.2)
    summary.totalFilesScanned = r.files.length ∧
    summary.totalVulnerabilities = found.length ∧
    (Severity.descending.map summary.severityBreakdown.get).sum = found.length ∧
    (summary.ruleBreakdown.map (·.2)).sum = found.length ∧
    (report.detailedFindings.map (·.2.length)).sum = found.length ∧
    (∀ v, summary.severityBreakdown.get v = found.countP (·.severity == v)) ∧
    (summary.ruleBreakdown.Pairwise fun x y => x.1 ≠ y.1) ∧
    (∀ id n, (id, n) ∈ summary.ruleBreakdown ↔
      n = found.countP (·.ruleId == id) ∧ 0 < n) ∧
    report.detailedFindings.Perm (r.files.map fun x => (x.1.text, x.2)) ∧
    report.detailedFindings.Pairwise fun x y => utf8Bytes x.1 < utf8Bytes y.1 := by
  intro report summary found
  have htotal : summary.severityBreakdown.total = found.length :=
    SeverityCounts.total_ofFindings found
  refine ⟨rfl, htotal, ?_, ScanReport.sum_ruleBreakdown r, ScanReport.sum_detailedFindings hr hutf8,
    SeverityCounts.get_ofFindings found, ?_, fun id n => ScanReport.mem_ruleBreakdown_iff,
    ScanReport.detailedFindings_perm hr hutf8, ScanReport.detailedFindings_increase r⟩
  · rw [← SeverityCounts.total_eq_sum, htotal]
  · exact (Ordered.increases_tally _).imp fun h => Ordered.fst_ne_of_compare h

/-- two files with the second one without findings, whose paths change places -/
theorem report_keeps_findings_of_two_files :
    let about : RuleInfo := ⟨"OMEGA-001", "Reentrancy", "", .high, "", []⟩
    let found := Finding.ofLine about 1 "external_call(target);".toList
    let r : ScanResults := ⟨[(⟨"a/b"⟩, [found, found]), (⟨"a-b"⟩, [])]⟩
    Ordered.Increases r.files ∧ (∀ x ∈ r.files, x.1.raw.IsUtf8) ∧
    (ScanReport.ofResults r).detailedFindings.map (·.1) = ["a-b", "a/b"] ∧
    ("OMEGA-001", 2) ∈ (ScanReport.ofResults r).summary.ruleBreakdown ∧
    ((ScanReport.ofResults r).detailedFindings.map (·.2.length)).sum = 2 := by
  intro about found r
  have hr : Ordered.Increases r.files := List.pairwise_pair.2 (by decide)
  have hutf8 : ∀ x ∈ r.files, x.1.raw.IsUtf8 := by decide
  obtain ⟨-, -, -, -, hsum, -, -, hrule, -, -⟩ := report_keeps_findings hr hutf8
  exact ⟨hr, hutf8, by decide, (hrule _ _).2 (by decide), hsum⟩

end ContractAudit
