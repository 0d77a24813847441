import ContractAudit.Severity
import ContractAudit.Text.Blank

/-!
# Findings

* `RuleInfo`: what a rule says about itself; every finding of the rule repeats it.
* `Finding`: one match of a rule in one line of a source.
* `Finding.ofLine`: the finding of an automated rule.
* `Finding.forAudit`: the same finding in an audit, where a CRITICAL one asks for a human review.
-/

namespace ContractAudit

/-- the description of a rule -/
structure RuleInfo where
  id : String
  title : String
  description : String
  severity : Severity
  recommendation : String
  references : List String
  deriving DecidableEq

/-- one match of a rule in one line of a source -/
structure Finding where
  ruleId : String
  title : String
  description : String
  severity : Severity
  /-- counted from one -/
  lineNumber : Nat
  /-- the line without the white space around it -/
  snippet : String
  recommendation : String
  references : List String
  /-- between 0 and 1 -/
  confidence : Float
  automated : Bool
  needsReview : Bool
  deriving DecidableEq

namespace Finding

/-- the confidence of every finding of an automated rule -/
def automatedConfidence : Float := 0.8

def ofLine (about : RuleInfo) (lineNumber : Nat) (line : List Char) : Finding where
  ruleId := about.id
  title := about.title
  description := about.description
  severity := about.severity
  lineNumber := lineNumber
  snippet := String.ofList (Text.trim line)
  recommendation := about.recommendation
  references := about.references
  confidence := automatedConfidence
  automated := true
  needsReview := false

/-- the finding as an audit reports it: a CRITICAL one has to be reviewed by hand -/
def forAudit (f : Finding) : Finding :=
  { f with needsReview := f.severity == .critical }

end Finding

/-- the counts of the severities of some findings -/
def SeverityCounts.ofFindings (fs : List Finding) : SeverityCounts :=
  ofList (fs.map (·.severity))

end ContractAudit
