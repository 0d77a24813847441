import ContractAudit.Analysis.ScoreNumber
import ContractAudit.Severity

/-!
# Risk

What the severities of findings add up to.

* `Severity.scanWeight`, `Severity.auditWeight`: the weights of a finding in the risk score of a
  scan and of an audit.
* `Severity.penalty`: the points that a finding takes from the security score.
* `scanRiskScore`, `auditRiskScore`: the weighted counts in 32 bits, where every step stops at the
  largest number.
* `RiskLevel`, `scanRiskLevel`, `auditRiskLevel`: the level of a risk score.
* `securityScore`: 100 less the penalties, at least 0.
* `adviseIf`: a recommendation that is given on a condition.
-/

namespace ContractAudit

namespace Severity

/-- the weight of a finding in the risk score of a scan -/
def scanWeight : Severity → Nat
  | critical => 10
  | high => 7
  | medium => 4
  | low => 1
  | info => 0

/-- the weight of a finding in the risk score of an audit -/
def auditWeight : Severity → Nat
  | critical => 10
  | high => 7
  | medium => 3
  | low => 1
  | info => 0

/-- the points that a finding takes from the security score -/
def penalty : Severity → Nat
  | critical => 25
  | high => 15
  | medium => 5
  | low => 2
  | info => 0

end Severity

/-- the largest risk score -/
def maxScore : Nat := 4294967295

/-- add two scores, stopping at the largest one -/
def addScores (a b : Nat) : Nat := min (a + b) maxScore

/-- a weight times a count, where the count and the product stop at the largest score -/
def scaleCount (weight count : Nat) : Nat := min (weight * min count maxScore) maxScore

/-- the weighted counts of all severities -/
def weightedSum (weight : Severity → Nat) (n : SeverityCounts) : Nat :=
  (Severity.descending.map fun s => scaleCount (weight s) (n.get s)).foldl addScores 0

/-- the risk score of a scan -/
def scanRiskScore (n : SeverityCounts) : Nat := weightedSum Severity.scanWeight n

/-- the risk score of an audit -/
def auditRiskScore (n : SeverityCounts) : Nat := weightedSum Severity.auditWeight n

/-- how risky a source or a project is -/
inductive RiskLevel
  | critical
  | high
  | medium
  | low
  | info
  /-- the audit did not come to an end -/
  | unknown
  deriving DecidableEq

namespace RiskLevel

/-- all levels -/
def all : List RiskLevel := [critical, high, medium, low, info, unknown]

/-- the name of a level in reports -/
def name : RiskLevel → String
  | critical => "CRITICAL"
  | high => "HIGH"
  | medium => "MEDIUM"
  | low => "LOW"
  | info => "INFO"
  | unknown => "UNKNOWN"

/-- the level of a name -/
def ofName? (s : String) : Option RiskLevel := all.find? fun l => l.name == s

/-- the level stands in the way of a deployment -/
def isSevere : RiskLevel → Bool
  | critical | high => true
  | _ => false

/-- the advice that goes with a level -/
def recommendation : RiskLevel → String
  | critical => "DO NOT DEPLOY - Address all critical and high severity issues"
  | high => "Major security review required - Fix critical issues before deployment"
  | medium => "Security improvements recommended - Review and fix medium severity issues"
  | low | info => "Minor security enhancements suggested - Monitor and improve over time"
  | unknown => "Unknown risk level"

end RiskLevel

def adviseIf (condition : Bool) (text : String) : List String := if condition then [text] else []

def scanRiskLevel (score : Nat) : RiskLevel :=
  if 50 ≤ score then .critical
  else if 25 ≤ score then .high
  else if 10 ≤ score then .medium
  else if 1 ≤ score then .low
  else .info

/-- the level of a risk score in an audit, which never is INFO -/
def auditRiskLevel (score : Nat) : RiskLevel :=
  match scanRiskLevel score with
  | .info => .low
  | l => l

section

variable {α : Type} [ScoreNumber α]

open ScoreNumber

/-- the security score that a sum of penalties leaves -/
def securityScoreOfPenalty (penalty : Nat) : α :=
  sub (ofCount 100) (ofCount (min penalty 100))

/-- the penalties of some findings, given by their severities -/
def totalPenalty (l : List Severity) : Nat := (l.map Severity.penalty).foldl addScores 0

/-- the security score of some findings, given by their severities -/
def securityScore (l : List Severity) : α := securityScoreOfPenalty (totalPenalty l)

end

end ContractAudit
