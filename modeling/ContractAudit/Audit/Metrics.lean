import ContractAudit.Analysis.FileMetrics
import ContractAudit.Error
import ContractAudit.Risk

/-!
# Metrics of a project

* `AuditMetrics`: the lines and the scores of a project.
* `mean`: the arithmetic mean of a row of numbers, summed up from the left.
* `AuditMetrics.aggregate`: the metrics of a project from those of its files; a project without
  files has none.
-/

namespace ContractAudit

/-- the lines and the scores of a project -/
structure AuditMetrics (α : Type) where
  totalLines : Nat
  complexityScore : α
  securityScore : α
  gasEfficiencyScore : α
  codeQualityScore : α
  documentationScore : α
  deriving DecidableEq

section

variable {α : Type} [ScoreNumber α]

open ScoreNumber

def mean (x : α) (xs : List α) : α := div (xs.foldl add x) (ofCount (xs.length + 1))

/-- the lines are added up, the scores of the files are averaged -/
def AuditMetrics.aggregate (files : List (FileMetrics α)) (security documentation : α) :
    Except AuditError (AuditMetrics α) :=
  match files with
  | [] => .error .noFiles
  | f :: fs => .ok
    { totalLines := files.foldr (fun f n => f.lines + n) 0
      complexityScore := mean f.complexityScore (fs.map (·.complexityScore))
      securityScore := security
      gasEfficiencyScore := mean f.gasEfficiencyScore (fs.map (·.gasEfficiencyScore))
      codeQualityScore := mean f.codeQualityScore (fs.map (·.codeQualityScore))
      documentationScore := documentation }

end

end ContractAudit
