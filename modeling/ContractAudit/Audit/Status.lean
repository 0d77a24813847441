import ContractAudit.Text.Lowercase

/-!
# Levels and states of an audit

* `AuditLevel`: how deep an audit goes.
* `AuditLevel.ofText?`: the level of a name in any case.
* `AuditStatus`: the state of an audit.
* `AuditStatus.canBecome`: the steps that an audit can take; COMPLETED and FAILED are the end.
-/

namespace ContractAudit

/-- how deep an audit goes -/
inductive AuditLevel
  | basic
  | standard
  | comprehensive
  | critical
  deriving DecidableEq

namespace AuditLevel

def all : List AuditLevel := [basic, standard, comprehensive, critical]

def name : AuditLevel → String
  | basic => "BASIC"
  | standard => "STANDARD"
  | comprehensive => "COMPREHENSIVE"
  | critical => "CRITICAL"

def ofName? (s : String) : Option AuditLevel := all.find? fun l => l.name == s

def ofText? (s : String) : Option AuditLevel :=
  all.find? fun l => Text.lowercase l.name.toList == Text.lowercase s.toList

end AuditLevel

/-- the state of an audit -/
inductive AuditStatus
  | pending
  | inProgress
  | completed
  | failed
  deriving DecidableEq

namespace AuditStatus

def all : List AuditStatus := [pending, inProgress, completed, failed]

def name : AuditStatus → String
  | pending => "PENDING"
  | inProgress => "IN_PROGRESS"
  | completed => "COMPLETED"
  | failed => "FAILED"

def ofName? (s : String) : Option AuditStatus := all.find? fun l => l.name == s

/-- an audit in the first state can go over to the second -/
def canBecome : AuditStatus → AuditStatus → Bool
  | pending, inProgress | pending, failed => true
  | inProgress, completed | inProgress, failed => true
  | _, _ => false

end AuditStatus

end ContractAudit
