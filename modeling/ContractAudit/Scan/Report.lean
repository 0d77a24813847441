import ContractAudit.Risk
import ContractAudit.Scan.Results

/-!
# Reports of scans

* `ScanSummary`: the counts of a scan and its risk.
* `ScanReport`: the summary, recommendations, and the findings by displayed path.
* `ScanReport.ofResults`: the report of some results.
* `scanRecommendations`: what a scan recommends; always something.
-/

namespace ContractAudit

/-- the counts of a scan and its risk -/
structure ScanSummary where
  /-- the files that have an entry in the results -/
  totalFilesScanned : Nat
  totalVulnerabilities : Nat
  severityBreakdown : SeverityCounts
  /-- the number of findings by rule id -/
  ruleBreakdown : List (String × Nat)
  riskScore : Nat
  riskLevel : RiskLevel
  deriving DecidableEq

/-- the report of a scan -/
structure ScanReport where
  summary : ScanSummary
  recommendations : List String
  /-- the findings by displayed path -/
  detailedFindings : List (String × List Finding)
  deriving DecidableEq

def scanRecommendations (n : SeverityCounts) : List String :=
  let advice :=
    adviseIf (0 < n.critical)
      "Address CRITICAL vulnerabilities immediately before deployment" ++
    adviseIf (0 < n.high) "Fix HIGH severity vulnerabilities before mainnet deployment" ++
    adviseIf (0 < n.medium)
      "Review MEDIUM severity issues and fix based on risk assessment" ++
    adviseIf (5 < n.critical + n.high)
      "Conduct comprehensive security audit before production"
  if advice.isEmpty then
    ["No significant security issues found - maintain secure coding practices"]
  else advice

namespace ScanReport

def ofResults (r : ScanResults) : ScanReport :=
  let counts := SeverityCounts.ofFindings r.allFindings
  let score := scanRiskScore counts
  { summary :=
      { totalFilesScanned := r.files.length
        totalVulnerabilities := counts.total
        severityBreakdown := counts
        ruleBreakdown := Ordered.tally (r.allFindings.map (·.ruleId))
        riskScore := score
        riskLevel := scanRiskLevel score }
    recommendations := scanRecommendations counts
    detailedFindings := Ordered.ofList (r.files.map fun (p, fs) => (p.text, fs)) }

end ScanReport

end ContractAudit
