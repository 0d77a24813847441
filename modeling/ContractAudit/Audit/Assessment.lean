import ContractAudit.Audit.Metrics
import ContractAudit.Finding

/-!
# Risk assessment

* `Deployment`: the advice whether to deploy, and its wording.
* `Deployment.decide`: the risk level comes first, then the security score, then the complexity.
* `RiskAssessment`: what an audit says about the risk.
* `RiskAssessment.ofFindings`: the assessment of findings and metrics.
* `auditRecommendations`: what an audit recommends; always something.
-/

namespace ContractAudit

/-- the advice whether to deploy -/
inductive Deployment
  | notRecommended
  | risky
  | proceedWithCaution
  | acceptable
  deriving DecidableEq

namespace Deployment

def all : List Deployment := [notRecommended, risky, proceedWithCaution, acceptable]

def message : Deployment → String
  | notRecommended => "DEPLOYMENT NOT RECOMMENDED"
  | risky => "DEPLOYMENT RISKY - Security score below recommended threshold"
  | proceedWithCaution => "DEPLOYMENT WITH CAUTION - High complexity may introduce risks"
  | acceptable => "DEPLOYMENT ACCEPTABLE - Monitor and maintain security practices"

def ofMessage? (s : String) : Option Deployment := all.find? fun d => d.message == s

def decide (level : RiskLevel) (m : AuditMetrics Float) : Deployment :=
  if level.isSevere then notRecommended
  else if m.securityScore < 70.0 then risky
  else if m.complexityScore > 80.0 then proceedWithCaution
  else acceptable

end Deployment

/-- what an audit says about the risk -/
structure RiskAssessment where
  riskLevel : RiskLevel
  /-- the weighted sum of the severities, or -1 if the audit failed -/
  riskScore : Int
  severityBreakdown : SeverityCounts
  recommendation : String
  deployment : Option Deployment
  deriving DecidableEq

namespace RiskAssessment

/-- the assessment of a project without sources -/
def noInput : RiskAssessment := ⟨.low, 0, {}, "No files to audit", none⟩

def failed : RiskAssessment := ⟨.unknown, -1, {}, "Audit could not be completed", none⟩

def ofFindings (fs : List Finding) (m : AuditMetrics Float) : RiskAssessment :=
  let counts := SeverityCounts.ofFindings fs
  let score := auditRiskScore counts
  let level := auditRiskLevel score
  ⟨level, score, counts, level.recommendation, some (Deployment.decide level m)⟩

end RiskAssessment

def auditRecommendations (fs : List Finding) (m : AuditMetrics Float) : List String :=
  let n := SeverityCounts.ofFindings fs
  let advice :=
    adviseIf (0 < n.critical) "Address all CRITICAL vulnerabilities before deployment" ++
    adviseIf (0 < n.high) "Fix HIGH severity vulnerabilities in next release" ++
    adviseIf (5 < n.critical + n.high)
      "Schedule a full manual security audit before production" ++
    adviseIf (m.securityScore < 80.0) "Improve security practices and patterns" ++
    adviseIf (m.complexityScore > 70.0) "Reduce code complexity to improve maintainability" ++
    adviseIf (m.gasEfficiencyScore < 60.0) "Optimize gas usage for better cost efficiency" ++
    adviseIf (m.codeQualityScore < 70.0) "Improve code quality and documentation"
  if advice.isEmpty then ["Good security posture - maintain current practices"] else advice

end ContractAudit
