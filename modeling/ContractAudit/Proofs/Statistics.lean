import ContractAudit.Proofs.ScanAudit
import ContractAudit.Proofs.ScanReports

/-!
# Statistics of scans

Statistics and report of a scan count the same findings, each in its own way, and the statistics put
the rules with the most findings first.  The sort compares numbers only, but the rules come to it in
the order of their ids, and it leaves those with as many findings as they are.

* `filter_mergeSort`: sorting leaves what is level with each other in its order.
* `pairwise_mergeSort_of_pairwise`: what is level is in the order that the whole list had before.
* `ScanStatistics.mostCommon_ranked`: the order of the rules.

The main statement is `ranked_statistics`.
-/

namespace ContractAudit

/-! ## sorting -/

section
variable {α : Type} {le : α → α → Bool} (trans : ∀ a b c, le a b → le b c → le a c)
  (total : ∀ a b, le a b || le b a)
include trans total

/-- sorting leaves what is level with each other in its order -/
theorem filter_mergeSort {p : α → Bool} (hp : ∀ a b, p a → p b → le a b) (l : List α) :
    (l.mergeSort le).filter p = l.filter p := by
  have hlevel : (l.filter p).Pairwise fun a b => le a b :=
    List.pairwise_filter.2 (List.pairwise_of_forall fun a b ha hb => hp a b ha hb)
  have hsub := (List.sublist_mergeSort trans total hlevel List.filter_sublist).filter p
  rw [List.filter_filter] at hsub
  simp only [Bool.and_self] at hsub
  exact (hsub.eq_of_length ((List.mergeSort_perm l le).filter p).length_eq.symm).symm

theorem pairwise_mergeSort_of_pairwise {R : α → α → Prop} {l : List α} (hl : l.Pairwise R) :
    (l.mergeSort le).Pairwise fun a b => le a b ∧ (le b a → R a b) := by
  have hsorted := List.pairwise_mergeSort trans total l
  rw [List.pairwise_iff_forall_sublist] at hl hsorted ⊢
  intro a b hab
  refine ⟨hsorted hab, fun hba => ?_⟩
  -- what is level with the first one of them, which both are
  let level (c : α) : Bool := le a c && le c a
  have hself : le a a := by simpa using total a a
  have hfilter : [a, b].filter level = [a, b] := by simp [level, hself, hsorted hab, hba]
  have hlevel : ∀ c d, level c → level d → le c d := by
    intro c d hc hd
    exact trans c a d (Bool.and_eq_true_iff.1 hc).2 (Bool.and_eq_true_iff.1 hd).1
  have hsub := hab.filter level
  rw [hfilter, filter_mergeSort trans total hlevel] at hsub
  exact hl (hsub.trans List.filter_sublist)

end

/-! ## the rules with the most findings -/

namespace ScanStatistics

theorem mostCommon_perm (totalFiles : Nat) (r : ScanResults) :
    (ofResults totalFiles r).mostCommon.Perm (ScanReport.ofResults r).summary.ruleBreakdown :=
  List.mergeSort_perm _ _

/-- rules with more findings come first, and those with as many by the bytes of their ids -/
theorem mostCommon_ranked (totalFiles : Nat) (r : ScanResults) :
    (ofResults totalFiles r).mostCommon.Pairwise fun x y =>
      y.2 < x.2 ∨ x.2 = y.2 ∧ utf8Bytes x.1 < utf8Bytes y.1 := by
  have hids := (Ordered.increases_tally (r.allFindings.map (·.ruleId))).imp utf8Bytes_lt_of_compare
  refine (pairwise_mergeSort_of_pairwise (fun x y z hxy hyz => ?_) (fun x y => ?_) hids).imp ?_
  · simp only [decide_eq_true_eq] at hxy hyz ⊢
    exact Nat.le_trans hyz hxy
  · simp only [Bool.or_eq_true, decide_eq_true_eq]
    exact Nat.le_total y.2 x.2
  · rintro x y ⟨hle, htie⟩
    simp only [decide_eq_true_eq] at hle htie
    rcases Nat.lt_or_eq_of_le hle with hlt | heq
    · exact .inl hlt
    · exact .inr ⟨heq.symm, htie heq.ge⟩

theorem filesWithVulnerabilities_ofFiles_le (t : FileTree) (files : List Path) :
    let statistics := (ScanOutput.ofFiles t files).statistics
    statistics.filesWithVulnerabilities ≤ statistics.totalFiles :=
  length_scanFiles_le t files

end ScanStatistics

/-- **Statistics agree with the report.**  Whatever the results, their statistics have as many files
with findings, findings in all and findings of each severity as their report, and as there are.  The
most common rules are those of the report, each once with the number of its findings, which add up to
all of them; the rules with more findings come first, and of those with as many the one whose id has
the smaller bytes.  A scan finds something in no more files than it looks at. -/
theorem ranked_statistics (r : ScanResults) (totalFiles : Nat) :
    let statistics := ScanStatistics.ofResults totalFiles r
    let summary := (ScanReport.ofResults r).summary
    let found := r.files.flatMap (·.2)
    statistics.totalFiles = totalFiles ∧
    statistics.filesWithVulnerabilities = summary.totalFilesScanned ∧
    statistics.totalVulnerabilities = summary.totalVulnerabilities ∧
    statistics.totalVulnerabilities = found.length ∧
    statistics.severityBreakdown = summary.severityBreakdown ∧
    (∀ v, statistics.severityBreakdown.get v = found.countP (·.severity == v)) ∧
    statistics.mostCommon.Perm summary.ruleBreakdown ∧
    (statistics.mostCommon.Pairwise fun x y => x.1 ≠ y.1) ∧
    (∀ id n, (id, n) ∈ statistics.mostCommon ↔ n = found.countP (·.ruleId == id) ∧ 0 < n) ∧
    (statistics.mostCommon.map (·.2)).sum = statistics.totalVulnerabilities ∧
    (statistics.mostCommon.Pairwise fun x y =>
      y.2 < x.2 ∨ x.2 = y.2 ∧ utf8Bytes x.1 < utf8Bytes y.1) ∧
    ∀ (t : FileTree) (root : Path) (o : ScanOptions) (brought : ScanOutput),
      scan t root o = .ok brought →
      brought.statistics.filesWithVulnerabilities ≤ brought.statistics.totalFiles := by
  intro statistics summary found
  have htotal : statistics.totalVulnerabilities = found.length :=
    SeverityCounts.total_ofFindings found
  have hperm : statistics.mostCommon.Perm summary.ruleBreakdown :=
    ScanStatistics.mostCommon_perm totalFiles r
  have hdistinct : summary.ruleBreakdown.Pairwise fun x y => x.1 ≠ y.1 :=
    (Ordered.increases_tally _).imp Ordered.fst_ne_of_compare
  refine ⟨rfl, rfl, rfl, htotal, rfl, SeverityCounts.get_ofFindings found, hperm,
    (hperm.pairwise_iff Ne.symm).2 hdistinct, fun id n => ?_, ?_,
    ScanStatistics.mostCommon_ranked totalFiles r, fun t root o brought h => ?_⟩
  · rw [hperm.mem_iff]
    exact ScanReport.mem_ruleBreakdown_iff
  · calc (statistics.mostCommon.map (·.2)).sum
        = (summary.ruleBreakdown.map (·.2)).sum := (hperm.map _).sum_nat
      _ = found.length := ScanReport.sum_ruleBreakdown r
      _ = statistics.totalVulnerabilities := htotal.symm
  · obtain ⟨config, files, -, -, rfl⟩ := scan_eq_ok_iff.1 h
    exact ScanStatistics.filesWithVulnerabilities_ofFiles_le t files

/-- a line in which one rule finds something twice and two rules find something once -/
theorem ranked_statistics_of_one_file :
    let source := "a.call(block.timestamp);"
    let t : FileTree := ⟨[(["a"], .file source.toUTF8)], []⟩
    let brought := ScanOutput.ofFiles t [⟨"a"⟩]
    scan t ⟨"a"⟩ ⟨some ⟨"c"⟩, none⟩ = .ok brought ∧ brought.statistics.totalFiles = 1 ∧
    brought.statistics.filesWithVulnerabilities ≤ brought.statistics.totalFiles ∧
    brought.statistics.mostCommon = [("OMEGA-005", 2), ("OMEGA-001", 1), ("OMEGA-004", 1)] := by
  intro source t brought
  have hscan : scan t ⟨"a"⟩ ⟨some ⟨"c"⟩, none⟩ = .ok brought := by
    have hfile : t.isFile ⟨"a"⟩ := by cbv
    refine scan_eq_ok_iff.2 ⟨.default, [⟨"a"⟩], loadFor_of_missing (by cbv), ?_, rfl⟩
    unfold scannedFiles
    rw [if_pos hfile]
  have hread : t.readText ⟨"a"⟩ = .ok source := FileTree.readText_of_readBytes_toUTF8 (by cbv)
  have hfound : (scanFiles t [⟨"a"⟩]).allFindings = scanText source.toList := by
    rw [allFindings_scanFiles (List.pairwise_singleton _ _), List.flatMap_singleton,
      scanFile_of_readText hread]
  have hids : (scanText source.toList).map (·.ruleId) =
      ["OMEGA-001", "OMEGA-004", "OMEGA-005", "OMEGA-005"] := by
    decide +kernel
  have hcommon : (ScanStatistics.ofResults 1 (scanFiles t [⟨"a"⟩])).mostCommon =
      [("OMEGA-005", 2), ("OMEGA-001", 1), ("OMEGA-004", 1)] := by
    show (Ordered.tally ((scanFiles t [⟨"a"⟩]).allFindings.map (·.ruleId))).mergeSort _ = _
    rw [hfound, hids]
    cbv
  obtain ⟨htotal, -, -, -, -, -, -, -, -, -, -, hfew⟩ := ranked_statistics (scanFiles t [⟨"a"⟩]) 1
  exact ⟨hscan, htotal, hfew t _ _ _ hscan, hcommon⟩

end ContractAudit
