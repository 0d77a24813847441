import ContractAudit.Finding
import ContractAudit.Ordered
import ContractAudit.Path

/-!
# Results of a scan

The findings of a scan, file by file in the order of their paths.

* `ScanResults`: the findings by path.
* `ScanResults.insert`: with the findings of one more file.
* `ScanResults.allFindings`: the findings of all files.
-/

namespace ContractAudit

/-- the findings of files, in the order of their paths -/
structure ScanResults where
  files : List (Path × List Finding)
  deriving DecidableEq

namespace ScanResults

/-- no files -/
def empty : ScanResults := ⟨[]⟩

/-- with the findings of one more file; those of the same file are replaced -/
def insert (r : ScanResults) (p : Path) (fs : List Finding) : ScanResults :=
  ⟨Ordered.insert p fs r.files⟩

def allFindings (r : ScanResults) : List Finding := r.files.flatMap (·.2)

end ScanResults

end ContractAudit
