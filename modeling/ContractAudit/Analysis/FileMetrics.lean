import ContractAudit.Analysis.Gas
import ContractAudit.Analysis.Quality

/-!
# Metrics of one source

The number of lines of a source and its three scores.
-/

namespace ContractAudit

open Text

/-- the lines and the scores of one source -/
structure FileMetrics (α : Type) where
  lines : Nat
  complexityScore : α
  gasEfficiencyScore : α
  codeQualityScore : α
  deriving DecidableEq

namespace FileMetrics

def ofSource {α : Type} [ScoreNumber α] (s : List Char) : FileMetrics α where
  lines := lineCount s
  complexityScore := (ComplexityFactors.ofSource s).score (lineCount s)
  gasEfficiencyScore := (GasIssues.ofSource s).score
  codeQualityScore := (QualityIndicators.ofSource s).score (lineCount s)

end FileMetrics

end ContractAudit
