import ContractAudit.Analysis.ScoreNumber
import ContractAudit.Text.Blank
import ContractAudit.Text.Factor
import ContractAudit.Text.Lines

/-!
# Complexity of a source

Four kinds of lines make a source complex.  Each line counts once for each kind it belongs to.

* `trimmedLines`: the lines of a source as they are looked at here.
* `ComplexityFactors`: the four counts.
* `ComplexityFactors.ofLines`, `ComplexityFactors.ofSource`: the counts of lines, and of a source.
* `ComplexityFactors.weighted`: their weighted sum.
* `ComplexityFactors.score`: ten times the weighted sum per line, at most 100.
-/

namespace ContractAudit

open Text

/-- the lines of a source, with the white space around them off -/
def trimmedLines (s : List Char) : List (List Char) := (lines s).map trim

/-- how many lines of each kind add to the complexity of a source -/
structure ComplexityFactors where
  controlFlow : Nat
  functions : Nat
  stateVariables : Nat
  externalCalls : Nat
  deriving DecidableEq

/-- the line names a function and opens a parenthesis -/
def isFunctionLine (l : List Char) : Bool :=
  hasFactor "function".toList l && hasFactor "(".toList l

namespace ComplexityFactors

/-- the line names a type of state and assigns something -/
def isStateLine (l : List Char) : Bool :=
  hasAnyFactor (words ["mapping", "uint", "int", "bool", "address"]) l && hasFactor "=".toList l

def ofLines (ls : List (List Char)) : ComplexityFactors where
  controlFlow := ls.countP (hasAnyFactor (words ["if", "else", "while", "for", "switch"]))
  functions := ls.countP isFunctionLine
  stateVariables := ls.countP isStateLine
  externalCalls := ls.countP (hasAnyFactor (words ["call", "delegatecall", "transfer"]))

def ofSource (s : List Char) : ComplexityFactors := ofLines (trimmedLines s)

/-- control flow counts twice, a function three times and an external call five times -/
def weighted (f : ComplexityFactors) : Nat :=
  f.controlFlow * 2 + f.functions * 3 + f.stateVariables + f.externalCalls * 5

open ScoreNumber in
/-- ten times the weighted sum per line, at most 100 -/
def score {α : Type} [ScoreNumber α] (f : ComplexityFactors) (lineCount : Nat) : α :=
  atMostHundred (mul (div (ofCount f.weighted) (ofCount (max lineCount 1))) (ofCount 10))

end ComplexityFactors

end ContractAudit
