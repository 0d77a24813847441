import ContractAudit.Rule

/-!
# The catalogue of rules

The five rules in the order in which they report, and the findings of all of them together.

* `Rule.reentrancy`, `Rule.integerOverflow`, `Rule.missingAccessControl`, `Rule.uncheckedCall`,
  `Rule.timestampDependence`: the rules.
* `catalogue`: all five.
* `findingsIn`: what they find in a source, rule by rule.
-/

namespace ContractAudit

open LinePattern

namespace Rule

/-- a dot, the name of a member and an opening parenthesis, in either case -/
def memberCallAnyCase (name : String) : LinePattern :=
  seq (anyCase name ++ blanks ++ exact "(")

/-- a dot, the name of a member and an opening parenthesis, exactly as written -/
def memberCall (name : String) : LinePattern := seq (exact name ++ blanks ++ exact "(")

def reentrancy : Rule where
  about :=
    { id := "OMEGA-001"
      title := "Potential Reentrancy Vulnerability"
      description := "External calls detected without reentrancy protection"
      severity := .high
      recommendation := "Use reentrancy guards or checks-effects-interactions pattern"
      references :=
        ["https://consensys.github.io/smart-contract-best-practices/attacks/reentrancy/",
         "https://solidity.readthedocs.io/en/v0.8.0/security-considerations.html"] }
  patterns :=
    [memberCallAnyCase ".call", memberCallAnyCase ".transfer", memberCallAnyCase ".send",
     seq (anyCase "external_call"), seq (anyCase "reentrant")]
  exemption := .never

/-- an operator that is followed by an equals sign -/
def compoundAssignment (op : Char) : LinePattern :=
  seq ([.one (.exactly op)] ++ blanks ++ exact "=")

/-- an operator that is followed by something else -/
def binaryOperation (op : Char) : LinePattern :=
  seq ([.one (.exactly op)] ++ blanks ++ [.one (.except '=')])

def integerOverflow : Rule where
  about :=
    { id := "OMEGA-002"
      title := "Potential Integer Overflow"
      description := "Arithmetic operation without overflow protection"
      severity := .high
      recommendation := "Use safe math libraries or explicit overflow checks"
      references :=
        ["https://consensys.github.io/smart-contract-best-practices/known_attacks/",
         "https://docs.openzeppelin.com/contracts/3.x/api/math"] }
  patterns :=
    [compoundAssignment '+', compoundAssignment '-', compoundAssignment '*',
     compoundAssignment '/', binaryOperation '+', binaryOperation '-', binaryOperation '*',
     binaryOperation '/']
  exemption := .line ["safe", "checked", "unchecked"]

/-- the head of a function: its name, its parameters and what comes after them -/
def functionHead : List Piece :=
  anyCase "function" ++ [.one .blank, .many .blank, .one .word, .many .word] ++ blanks ++
    exact "(" ++ [.many (.except ')')] ++ exact ")" ++ blanks

/-- functions that change state, in a source that names no access control -/
def missingAccessControl : Rule where
  about :=
    { id := "OMEGA-003"
      title := "Missing Access Control"
      description := "State-changing function without access control"
      severity := .critical
      recommendation := "Implement access control modifiers (onlyOwner, roles, etc.)"
      references :=
        ["https://consensys.github.io/smart-contract-best-practices/access-control/",
         "https://docs.openzeppelin.com/contracts/3.x/access-control"] }
  patterns :=
    [⟨[functionHead ++ anyCase "public", functionHead ++ anyCase "external"]⟩,
     seq (functionHead ++ anyCase "returns")]
  exemption :=
    .source ["onlyOwner", "require", "modifier", "access_control", "auth", "permission"]

def uncheckedCall : Rule where
  about :=
    { id := "OMEGA-004"
      title := "Unchecked External Call"
      description := "External call without return value checking"
      severity := .medium
      recommendation := "Always check return values of external calls"
      references :=
        ["https://consensys.github.io/smart-contract-best-practices/development-recommendations/",
         "https://solidity.readthedocs.io/en/v0.8.0/control-structures.html"] }
  patterns := [memberCall ".call", memberCall ".delegatecall", memberCall ".staticcall"]
  exemption := .line ["require", "assert", "if"]

def timestampDependence : Rule where
  about :=
    { id := "OMEGA-005"
      title := "Timestamp Dependence"
      description := "Usage of timestamp for critical logic"
      severity := .medium
      recommendation := "Avoid using timestamp for critical logic; use block.number instead"
      references :=
        ["https://consensys.github.io/smart-contract-best-practices/development-recommendations/",
         "https://ethereum.stackexchange.com/questions/5924/how-do-ethereum-mining-nodes-miners-validate-the-timestamp-of-a-block"] }
  patterns := [seq (anyCase "block.timestamp"), seq (anyCase "now"), seq (anyCase "timestamp")]
  exemption := .never

end Rule

/-- all rules, in the order in which they report -/
def catalogue : List Rule :=
  [.reentrancy, .integerOverflow, .missingAccessControl, .uncheckedCall, .timestampDependence]

/-- what each rule finds in a source -/
def findingsPerRule (s : List Char) : List (RuleInfo × List Finding) :=
  catalogue.map fun r => (r.about, r.findings s)

/-- what all rules find in a source -/
def findingsIn (s : List Char) : List Finding := catalogue.flatMap (·.findings s)

end ContractAudit
