import ContractAudit.Audit.Report
import ContractAudit.Decimal.Text
import ContractAudit.Time.Rfc3339

/-!
# The report of an audit for readers

A header, the findings by severity with the most severe first, the metrics, the risk and the
recommendations.

* `Plain.findingGroups`: the findings of each severity that occurs.
* `Plain.audit`: the whole report.
-/

namespace ContractAudit.Plain

/-- the rule under a heading -/
def rule : String := String.ofList (List.replicate 30 '-')

/-- a heading with the rule under it -/
def heading (s : String) : String := s ++ "\n" ++ rule ++ "\n"

/-- one finding -/
def finding (f : Finding) : String :=
  "  - " ++ f.title ++ " (Line " ++ toString f.lineNumber ++ ")\n" ++
    "    " ++ f.description ++ "\n" ++
    "    Recommendation: " ++ f.recommendation ++ "\n\n"

/-- the findings of each severity that occurs, the most severe first -/
def findingGroups (fs : List Finding) : List (Severity × List Finding) :=
  (Severity.descending.map fun s => (s, fs.filter (·.severity == s))).filter fun g =>
    !g.2.isEmpty

/-- the findings of one severity -/
def group (g : Severity × List Finding) : String :=
  "\n" ++ g.1.name ++ " SEVERITY (" ++ toString g.2.length ++ " findings):\n" ++
    String.join (g.2.map finding)

/-- the findings, if there are any -/
def findings (fs : List Finding) : String :=
  if fs.isEmpty then ""
  else heading "SECURITY FINDINGS" ++ String.join ((findingGroups fs).map group) ++ "\n"

/-- a score out of a hundred -/
def score (name : String) (x : Float) : String :=
  name ++ " Score: " ++ Decimal.fixedOne x ++ "/100\n"

/-- the metrics -/
def metrics (m : AuditMetrics Float) : String :=
  heading "AUDIT METRICS" ++
    "Total Lines of Code: " ++ toString m.totalLines ++ "\n" ++
    score "Complexity" m.complexityScore ++
    score "Security" m.securityScore ++
    score "Gas Efficiency" m.gasEfficiencyScore ++
    score "Code Quality" m.codeQualityScore ++
    score "Documentation" m.documentationScore ++ "\n"

/-- the risk -/
def risk (a : RiskAssessment) : String :=
  heading "RISK ASSESSMENT" ++
    "Risk Level: " ++ a.riskLevel.name ++ "\n" ++
    "Risk Score: " ++ toString a.riskScore ++ "\n" ++
    "Recommendation: " ++ a.recommendation ++ "\n" ++
    (match a.deployment with
      | none => ""
      | some d => "Deployment: " ++ d.message ++ "\n") ++ "\n"

/-- the recommendations, if there are any -/
def recommendations (advice : List String) : String :=
  if advice.isEmpty then ""
  else heading "AUDIT RECOMMENDATIONS" ++ String.join (advice.map fun a => "- " ++ a ++ "\n")

/-- what is known from the start -/
def header (r : AuditReport) : String :=
  "OMEGA SECURITY AUDIT REPORT\n" ++ String.ofList (List.replicate 60 '=') ++ "\n\n" ++
    "Audit ID: " ++ r.auditId ++ "\n" ++
    "Project: " ++ r.projectName ++ "\n" ++
    "Audit Level: " ++ r.level.name ++ "\n" ++
    "Status: " ++ r.status.name ++ "\n" ++
    "Started: " ++ r.startTime.rfc3339 "+00:00" ++ "\n" ++
    (match r.durationMinutes with
      | none => ""
      | some x => "Duration: " ++ Decimal.fixedOne x ++ " minutes\n") ++ "\n"

/-- notes and the date of the next audit, if there are any -/
def footer (r : AuditReport) : String :=
  (match r.auditorNotes with
    | none => ""
    | some s => "\nAuditor Notes: " ++ s ++ "\n") ++
  (match r.nextAuditDate with
    | none => ""
    | some t => "\nNext Audit Recommended: " ++ t.rfc3339 "+00:00" ++ "\n")

def audit (r : AuditReport) : String :=
  header r ++ findings r.findings ++
    (match r.metrics with
      | none => ""
      | some m => metrics m) ++
    risk r.risk ++ recommendations r.recommendations ++ footer r

end ContractAudit.Plain
