import ContractAudit.Finding
import ContractAudit.LinePattern
import ContractAudit.Text.Factor
import ContractAudit.Text.Lines
import ContractAudit.Text.Lowercase

/-!
# Rules

A rule looks at each line of a source with each of its patterns, and finds as many things in a
line as there are patterns that fire on it.

* `Exemption`: when a rule keeps silent, on one line or in a whole source.
* `Rule`: a description, patterns and an exemption.
* `Rule.findings`: what a rule finds in a source, line by line and in a line pattern by pattern.
-/

namespace ContractAudit

open Text

/-- when a rule keeps silent -/
inductive Exemption
  /-- it never does -/
  | never
  /-- on a line that holds one of these words, in exactly this case -/
  | line (markers : List String)
  /-- in a whole source that holds one of these words when both are in lower case -/
  | source (markers : List String)
  deriving DecidableEq

namespace Exemption

/-- the exemption covers the whole source -/
def coversSource : Exemption → List Char → Bool
  | never, _ => false
  | line _, _ => false
  | source ms, s =>
    let small := lowercase s
    ms.any fun m => hasFactor (lowercase m.toList) small

/-- the exemption covers this line -/
def coversLine : Exemption → List Char → Bool
  | never, _ => false
  | line ms, l => hasAnyFactor (words ms) l
  | source _, _ => false

end Exemption

/-- a rule that looks at sources line by line -/
structure Rule where
  about : RuleInfo
  patterns : List LinePattern
  exemption : Exemption
  deriving DecidableEq

namespace Rule

/-- what the rule finds in the line with this number: one finding for each pattern that fires -/
def findingsOnLine (r : Rule) (number : Nat) (line : List Char) : List Finding :=
  if r.exemption.coversLine line then []
  else (r.patterns.filter (·.firesOn line)).map fun _ => Finding.ofLine r.about number line

def findings (r : Rule) (s : List Char) : List Finding :=
  if r.exemption.coversSource s then []
  else (lines s).zipIdx.flatMap fun (line, i) => r.findingsOnLine (i + 1) line

end Rule

end ContractAudit
