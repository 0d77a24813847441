import ContractAudit.Scan.Results

/-!
# Statistics of scans

* `ScanStatistics`: how many files were looked at, and which rules found the most.
* `ScanStatistics.ofResults`: the statistics of some results.
-/

namespace ContractAudit

/-- how many files were looked at, and which rules found the most -/
structure ScanStatistics where
  /-- all files that were looked at, those without findings too -/
  totalFiles : Nat
  filesWithVulnerabilities : Nat
  totalVulnerabilities : Nat
  severityBreakdown : SeverityCounts
  /-- rule ids with the number of their findings, the largest first and equal ones by id -/
  mostCommon : List (String × Nat)
  deriving DecidableEq

namespace ScanStatistics

/-- the statistics of the results of a scan that looked at so many files -/
def ofResults (totalFiles : Nat) (r : ScanResults) : ScanStatistics :=
  let counts := SeverityCounts.ofFindings r.allFindings
  { totalFiles := totalFiles
    filesWithVulnerabilities := r.files.length
    totalVulnerabilities := counts.total
    severityBreakdown := counts
    mostCommon :=
      (Ordered.tally (r.allFindings.map (·.ruleId))).mergeSort fun a b => b.2 ≤ a.2 }

end ScanStatistics

end ContractAudit
