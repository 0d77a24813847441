/-!
# Severity

The five severities of a finding, from INFO up to CRITICAL, and how many findings there are of
each.

* `Severity`, `Severity.rank`: the severities and their order.
* `Severity.descending`: all of them, the most severe first.
* `SeverityCounts`: one count per severity.
* `SeverityCounts.ofList`: the counts of a list of severities.
-/

namespace ContractAudit

/-- how severe a finding is -/
inductive Severity
  | info
  | low
  | medium
  | high
  | critical
  deriving DecidableEq

namespace Severity

/-- all severities, the most severe first -/
def descending : List Severity := [critical, high, medium, low, info]

/-- the place of a severity in their order, INFO lowest -/
def rank : Severity → Nat
  | info => 0
  | low => 1
  | medium => 2
  | high => 3
  | critical => 4

/-- the name of a severity in reports -/
def name : Severity → String
  | info => "INFO"
  | low => "LOW"
  | medium => "MEDIUM"
  | high => "HIGH"
  | critical => "CRITICAL"

/-- the severity of a name -/
def ofName? (s : String) : Option Severity := descending.find? fun v => v.name == s

instance : LE Severity := ⟨fun a b => a.rank ≤ b.rank⟩
instance : LT Severity := ⟨fun a b => a.rank < b.rank⟩
instance : DecidableLE Severity := fun a b => inferInstanceAs (Decidable (a.rank ≤ b.rank))
instance : DecidableLT Severity := fun a b => inferInstanceAs (Decidable (a.rank < b.rank))
instance : Ord Severity := ⟨fun a b => compare a.rank b.rank⟩

end Severity

/-- how many findings there are of each severity -/
structure SeverityCounts where
  critical : Nat := 0
  high : Nat := 0
  medium : Nat := 0
  low : Nat := 0
  info : Nat := 0
  deriving DecidableEq, Inhabited

namespace SeverityCounts

/-- the count of one severity -/
def get (n : SeverityCounts) : Severity → Nat
  | .critical => n.critical
  | .high => n.high
  | .medium => n.medium
  | .low => n.low
  | .info => n.info

/-- all counts together -/
def total (n : SeverityCounts) : Nat := n.critical + n.high + n.medium + n.low + n.info

def ofList (l : List Severity) : SeverityCounts :=
  ⟨l.count .critical, l.count .high, l.count .medium, l.count .low, l.count .info⟩

theorem get_ofList (l : List Severity) (s : Severity) : (ofList l).get s = l.count s := by
  cases s <;> rfl

end SeverityCounts

end ContractAudit
