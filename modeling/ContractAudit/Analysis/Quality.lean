import ContractAudit.Analysis.Complexity

/-!
# Quality of a source

Comments, checks and guards speak for a source.

* `QualityIndicators`: the counts of such lines.
* `QualityIndicators.ofLines`, `QualityIndicators.ofSource`: the counts of lines, and of a source.
* `QualityIndicators.score`: 30 for comments and 40 for checks, each per line, and 30 for guards
  per function; at most 100.
-/

namespace ContractAudit

open Text

/-- how many lines of each kind speak for a source -/
structure QualityIndicators where
  commentLines : Nat
  namingConventionHits : Nat
  errorHandling : Nat
  functions : Nat
  securityPatterns : Nat
  deriving DecidableEq

namespace QualityIndicators

def isCommentLine (l : List Char) : Bool := startsWith "//".toList l || startsWith "/*".toList l

/-- the line names a function and has a low line in it -/
def followsNaming (l : List Char) : Bool :=
  hasFactor "function".toList l && hasFactor "_".toList l

def ofLines (ls : List (List Char)) : QualityIndicators where
  commentLines := ls.countP isCommentLine
  namingConventionHits := ls.countP followsNaming
  errorHandling := ls.countP (hasAnyFactor (words ["require", "assert", "revert"]))
  functions := ls.countP isFunctionLine
  securityPatterns := ls.countP (hasAnyFactor (words ["onlyOwner", "modifier", "access"]))

def ofSource (s : List Char) : QualityIndicators := ofLines (trimmedLines s)

open ScoreNumber in
/-- comments and checks per line and guards per function, weighted 30, 40 and 30 -/
def score {α : Type} [ScoreNumber α] (q : QualityIndicators) (lineCount : Nat) : α :=
  let perLine (n : Nat) : α := div (ofCount n) (ofCount lineCount)
  let guards : α := div (ofCount q.securityPatterns) (ofCount (max q.functions 1))
  atMostHundred
    (add (add (mul (perLine q.commentLines) (ofCount 30))
      (mul (perLine q.errorHandling) (ofCount 40))) (mul guards (ofCount 30)))

end QualityIndicators

end ContractAudit
