import ContractAudit.Audit.Report
import ContractAudit.Bounds
import ContractAudit.Json.Pretty
import ContractAudit.Json.Reader
import ContractAudit.Json.Record
import ContractAudit.Scan.Report
import ContractAudit.Time.Rfc3339

/-!
# Reports in files

Reports are kept as JSON.  Each kind of record is written with its fields in a fixed order, and
read whatever their order.

* `Finding.toJson`, `ScanReport.toJson`, `AuditReport.toJson`, …: records as JSON.
* `Finding.ofJson?`, `ScanReport.ofJson?`, `AuditReport.ofJson?`, …: and back.
* `ScanReport.write`, `AuditReport.write`: reports as texts.
* `ScanReport.read?`, `AuditReport.read?`: and back.
-/

namespace ContractAudit

open Json

def Json.count? (x : Json) : Option Nat := x.nat? maxCount

def Json.texts (l : List String) : Json := .array (l.map text)

def Json.severity? (x : Json) : Option Severity := x.variant?.bind Severity.ofName?

namespace RuleInfo

def toJson (r : RuleInfo) : Json := record [
  ("id", text r.id),
  ("title", text r.title),
  ("description", text r.description),
  ("severity", text r.severity.name),
  ("recommendation", text r.recommendation),
  ("references", texts r.references)]

end RuleInfo

namespace SeverityCounts

def toJson (n : SeverityCounts) : Json :=
  record (Severity.descending.map fun s => (s.name, ofNat (n.get s)))

def ofJson? (x : Json) : Option SeverityCounts := do
  let get ← x.fields? (Severity.descending.map Severity.name)
  let critical ← required get "CRITICAL" count?
  let high ← required get "HIGH" count?
  let medium ← required get "MEDIUM" count?
  let low ← required get "LOW" count?
  let info ← required get "INFO" count?
  return { critical, high, medium, low, info }

end SeverityCounts

namespace Finding

def fieldNames : List String :=
  ["rule_id", "title", "description", "severity", "line_number", "code_snippet",
   "recommendation", "references", "confidence", "automated", "requires_manual_review"]

def toJson (f : Finding) : Json := record [
  ("rule_id", text f.ruleId),
  ("title", text f.title),
  ("description", text f.description),
  ("severity", text f.severity.name),
  ("line_number", ofNat f.lineNumber),
  ("code_snippet", text f.snippet),
  ("recommendation", text f.recommendation),
  ("references", texts f.references),
  ("confidence", ofFloat f.confidence),
  ("automated", .bool f.automated),
  ("requires_manual_review", .bool f.needsReview)]

def ofJson? (x : Json) : Option Finding := do
  let get ← x.fields? fieldNames
  let ruleId ← required get "rule_id" text?
  let title ← required get "title" text?
  let description ← required get "description" text?
  let severity ← required get "severity" severity?
  let lineNumber ← required get "line_number" count?
  let snippet ← required get "code_snippet" text?
  let recommendation ← required get "recommendation" text?
  let references ← required get "references" (list? text?)
  let confidence ← required get "confidence" float?
  let automated ← required get "automated" flag?
  let needsReview ← required get "requires_manual_review" flag?
  return { ruleId, title, description, severity, lineNumber, snippet, recommendation, references,
           confidence, automated, needsReview }

end Finding

def Json.findings (fs : List Finding) : Json := .array (fs.map Finding.toJson)

namespace ScanSummary

def fieldNames : List String :=
  ["total_files_scanned", "total_vulnerabilities", "severity_breakdown", "rule_breakdown",
   "risk_score", "risk_level"]

def toJson (s : ScanSummary) : Json := record [
  ("total_files_scanned", ofNat s.totalFilesScanned),
  ("total_vulnerabilities", ofNat s.totalVulnerabilities),
  ("severity_breakdown", s.severityBreakdown.toJson),
  ("rule_breakdown", record (s.ruleBreakdown.map fun (id, n) => (id, ofNat n))),
  ("risk_score", ofNat s.riskScore),
  ("risk_level", text s.riskLevel.name)]

def ofJson? (x : Json) : Option ScanSummary := do
  let get ← x.fields? fieldNames
  let totalFilesScanned ← required get "total_files_scanned" count?
  let totalVulnerabilities ← required get "total_vulnerabilities" count?
  let severityBreakdown ← required get "severity_breakdown" SeverityCounts.ofJson?
  let ruleBreakdown ← required get "rule_breakdown" (map? count?)
  let riskScore ← required get "risk_score" (nat? maxScore)
  let riskLevel ← required get "risk_level" fun y => y.variant?.bind RiskLevel.ofName?
  return { totalFilesScanned, totalVulnerabilities, severityBreakdown, ruleBreakdown, riskScore,
           riskLevel }

end ScanSummary

namespace ScanReport

def toJson (r : ScanReport) : Json := record [
  ("summary", r.summary.toJson),
  ("recommendations", texts r.recommendations),
  ("detailed_findings", record (r.detailedFindings.map fun (path, fs) => (path, findings fs)))]

def ofJson? (x : Json) : Option ScanReport := do
  let get ← x.fields? ["summary", "recommendations", "detailed_findings"]
  let summary ← required get "summary" ScanSummary.ofJson?
  let recommendations ← required get "recommendations" (list? text?)
  let detailedFindings ← required get "detailed_findings" (map? (list? Finding.ofJson?))
  return { summary, recommendations, detailedFindings }

def write (r : ScanReport) : String := r.toJson.pretty

def read? (s : String) : Option ScanReport := (Json.parse s).bind ofJson?

end ScanReport

namespace AuditMetrics

def fieldNames : List String :=
  ["total_lines", "complexity_score", "security_score", "gas_efficiency_score",
   "code_quality_score", "documentation_score"]

def toJson (m : AuditMetrics Float) : Json := record [
  ("total_lines", ofNat m.totalLines),
  ("complexity_score", ofFloat m.complexityScore),
  ("security_score", ofFloat m.securityScore),
  ("gas_efficiency_score", ofFloat m.gasEfficiencyScore),
  ("code_quality_score", ofFloat m.codeQualityScore),
  ("documentation_score", ofFloat m.documentationScore)]

def ofJson? (x : Json) : Option (AuditMetrics Float) := do
  let get ← x.fields? fieldNames
  let totalLines ← required get "total_lines" count?
  let complexityScore ← required get "complexity_score" float?
  let securityScore ← required get "security_score" float?
  let gasEfficiencyScore ← required get "gas_efficiency_score" float?
  let codeQualityScore ← required get "code_quality_score" float?
  let documentationScore ← required get "documentation_score" float?
  return { totalLines, complexityScore, securityScore, gasEfficiencyScore, codeQualityScore,
           documentationScore }

end AuditMetrics

namespace RiskAssessment

def fieldNames : List String :=
  ["risk_level", "risk_score", "severity_breakdown", "recommendation",
   "deployment_recommendation"]

def toJson (a : RiskAssessment) : Json := record [
  ("risk_level", text a.riskLevel.name),
  ("risk_score", ofInt a.riskScore),
  ("severity_breakdown", a.severityBreakdown.toJson),
  ("recommendation", text a.recommendation),
  ("deployment_recommendation", orNull (fun d => text d.message) a.deployment)]

def ofJson? (x : Json) : Option RiskAssessment := do
  let get ← x.fields? fieldNames
  let riskLevel ← required get "risk_level" fun y => y.variant?.bind RiskLevel.ofName?
  let riskScore ← required get "risk_score" (int? minInt64 maxInt64)
  let severityBreakdown ← required get "severity_breakdown" SeverityCounts.ofJson?
  let recommendation ← required get "recommendation" text?
  let deployment ←
    optional get "deployment_recommendation" fun y => y.text?.bind Deployment.ofMessage?
  return { riskLevel, riskScore, severityBreakdown, recommendation, deployment }

end RiskAssessment

/-- an instant -/
def Json.instant (t : Instant) : Json := text (t.rfc3339 "Z")

/-- read an instant -/
def Json.instant? (x : Json) : Option Instant := x.text?.bind Instant.ofText?

namespace AuditReport

def fieldNames : List String :=
  ["audit_id", "project_name", "audit_level", "status", "start_time", "end_time",
   "duration_minutes", "findings", "metrics", "recommendations", "risk_assessment",
   "auditor_notes", "next_audit_date"]

def toJson (r : AuditReport) : Json := record [
  ("audit_id", text r.auditId),
  ("project_name", text r.projectName),
  ("audit_level", text r.level.name),
  ("status", text r.status.name),
  ("start_time", instant r.startTime),
  ("end_time", orNull instant r.endTime),
  ("duration_minutes", orNull ofFloat r.durationMinutes),
  ("findings", Json.findings r.findings),
  ("metrics", orNull AuditMetrics.toJson r.metrics),
  ("recommendations", texts r.recommendations),
  ("risk_assessment", r.risk.toJson),
  ("auditor_notes", orNull text r.auditorNotes),
  ("next_audit_date", orNull instant r.nextAuditDate)]

def ofJson? (x : Json) : Option AuditReport := do
  let get ← x.fields? fieldNames
  let auditId ← required get "audit_id" text?
  let projectName ← required get "project_name" text?
  let level ← required get "audit_level" fun y => y.variant?.bind AuditLevel.ofName?
  let status ← required get "status" fun y => y.variant?.bind AuditStatus.ofName?
  let startTime ← required get "start_time" instant?
  let endTime ← optional get "end_time" instant?
  let durationMinutes ← optional get "duration_minutes" float?
  let findings ← required get "findings" (list? Finding.ofJson?)
  let metrics ← optional get "metrics" AuditMetrics.ofJson?
  let recommendations ← required get "recommendations" (list? text?)
  let risk ← required get "risk_assessment" RiskAssessment.ofJson?
  let auditorNotes ← optional get "auditor_notes" text?
  let nextAuditDate ← optional get "next_audit_date" instant?
  return { auditId, projectName, level, status, startTime, endTime, durationMinutes, findings,
           metrics, recommendations, risk, auditorNotes, nextAuditDate }

def write (r : AuditReport) : String := r.toJson.pretty

def read? (s : String) : Option AuditReport := (Json.parse s).bind ofJson?

end AuditReport

end ContractAudit
