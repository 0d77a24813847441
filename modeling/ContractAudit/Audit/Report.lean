import ContractAudit.Audit.Assessment
import ContractAudit.Audit.Status
import ContractAudit.Time.Instant

/-!
# Reports of audits

A report is opened when an audit starts, and filled once, when the audit is completed or fails.

* `AuditReport`: the record of one audit.
* `AuditReport.pending`: the report of an audit that has not begun.
* `AuditReport.advance?`: the report in another state, if it can go over to it.
* `AuditReport.complete`, `AuditReport.completeEmpty`, `AuditReport.fail`: the end of an audit.
  Each leaves a report alone that cannot go over to its state.
-/

namespace ContractAudit

/-- what an audit of at least one file brings -/
structure AuditOutcome where
  findings : List Finding
  metrics : AuditMetrics Float
  recommendations : List String
  risk : RiskAssessment

/-- the record of one audit -/
structure AuditReport where
  auditId : String
  projectName : String
  level : AuditLevel
  status : AuditStatus
  startTime : Instant
  endTime : Option Instant
  durationMinutes : Option Float
  /-- file by file, in a file rule by rule, and for a rule line by line -/
  findings : List Finding
  /-- missing if there were no files -/
  metrics : Option (AuditMetrics Float)
  recommendations : List String
  risk : RiskAssessment
  auditorNotes : Option String
  nextAuditDate : Option Instant
  deriving DecidableEq

namespace AuditReport

def pending (auditId projectName : String) (level : AuditLevel) (startTime : Instant) :
    AuditReport where
  auditId := auditId
  projectName := projectName
  level := level
  status := .pending
  startTime := startTime
  endTime := none
  durationMinutes := none
  findings := []
  metrics := none
  recommendations := []
  risk := .noInput
  auditorNotes := none
  nextAuditDate := none

/-- the report in another state, if it can go over to it -/
def advance? (r : AuditReport) (next : AuditStatus) : Option AuditReport :=
  if r.status.canBecome next then some { r with status := next } else none

/-- the report in another state, or as it is if it cannot go over to it -/
def advance (r : AuditReport) (next : AuditStatus) : AuditReport := (r.advance? next).getD r

/-- the report in its last state, with the end of the audit and how long it took -/
def finish? (r : AuditReport) (last : AuditStatus) (endTime : Instant) : Option AuditReport :=
  (r.advance? last).map fun r =>
    { r with
      endTime := some endTime
      durationMinutes := some (r.startTime.minutesUntil endTime) }

def complete (r : AuditReport) (outcome : AuditOutcome) (endTime : Instant) : AuditReport :=
  match r.finish? .completed endTime with
  | none => r
  | some r =>
    { r with
      findings := outcome.findings
      metrics := some outcome.metrics
      recommendations := outcome.recommendations
      risk := outcome.risk
      nextAuditDate := endTime.nextYear? }

def completeEmpty (r : AuditReport) (pattern : String) (endTime : Instant) : AuditReport :=
  match r.finish? .completed endTime with
  | none => r
  | some r =>
    { r with
      recommendations := ["No contract files found for audit"]
      risk := .noInput
      auditorNotes := some
        ("No contract files matching '" ++ pattern ++ "' were found in the project directory") }

def fail (r : AuditReport) (error : String) (endTime : Instant) : AuditReport :=
  match r.finish? .failed endTime with
  | none => r
  | some r =>
    { r with
      findings := []
      metrics := none
      recommendations := ["Audit failed due to technical error"]
      risk := .failed
      auditorNotes := some ("Audit failed with error: " ++ error) }

end AuditReport

end ContractAudit
