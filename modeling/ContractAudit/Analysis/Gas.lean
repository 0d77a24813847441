import ContractAudit.Analysis.Complexity

/-!
# Gas efficiency of a source

Five kinds of lines cost gas.  Each line counts once for each kind it belongs to.

* `GasIssues`: the five counts.
* `GasIssues.ofLines`, `GasIssues.ofSource`: the counts of lines, and of a source.
* `GasIssues.score`: 100 less five points for each count, at least 0.
-/

namespace ContractAudit

open Text

/-- how many lines of each kind cost gas -/
structure GasIssues where
  storageOperations : Nat
  loops : Nat
  externalCalls : Nat
  complexMath : Nat
  stringOperations : Nat
  deriving DecidableEq

namespace GasIssues

def ofLines (ls : List (List Char)) : GasIssues where
  storageOperations := ls.countP (hasAnyFactor (words ["storage", "mapping", ".push", ".pop"]))
  loops := ls.countP (hasAnyFactor (words ["for", "while"]))
  externalCalls := ls.countP (hasAnyFactor (words [".call", ".transfer", ".send"]))
  complexMath := ls.countP (hasAnyFactor (words ["**", "exp", "log", "sqrt"]))
  stringOperations := ls.countP (hasAnyFactor (words ["string", "concat", "substring"]))

def ofSource (s : List Char) : GasIssues := ofLines (trimmedLines s)

def total (g : GasIssues) : Nat :=
  g.storageOperations + g.loops + g.externalCalls + g.complexMath + g.stringOperations

open ScoreNumber in
/-- five points off for each count -/
def score {α : Type} [ScoreNumber α] (g : GasIssues) : α :=
  atLeastZero (sub (ofCount 100) (mul (ofCount g.total) (ofCount 5)))

end GasIssues

end ContractAudit
