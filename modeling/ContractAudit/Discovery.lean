import ContractAudit.Analysis.Documentation
import ContractAudit.Error
import ContractAudit.FileTree.Walk

/-!
# Finding contracts and documents

* `discover`: the contracts at and below a root, that is the files whose names, as they are shown,
  fit a pattern, in the order of their paths.  A root that does not exist has none.
* `documentation`: the documents at and below a root.

Directories and links are never found, whatever their names are.
-/

namespace ContractAudit

/-- the name of a file that a walk comes to; other entries have none here -/
def walkedFileName? (x : Path × Entry) : Option RawText :=
  if x.2.isFile then x.1.fileName? else none

/-- a walk comes to a file whose name fits the pattern -/
def isContract (pattern : Glob.Pattern) (x : Path × Entry) : Bool :=
  match walkedFileName? x with
  | some name => pattern.matchesName name.text
  | none => false

/-- everything at and below a root -/
def walkFrom (t : FileTree) (root : Path) : Except AuditError (List (Path × Entry)) :=
  (t.walk root).mapError fun e => .walk e.path e.cause

def sortPaths (ps : List Path) : List Path := ps.mergeSort fun p q => (compare p q).isLE

/-- the contracts at and below a root, in the order of their paths -/
def discover (t : FileTree) (root : Path) (pattern : String) : Except AuditError (List Path) := do
  let pattern ← (Glob.parse pattern).mapError AuditError.pattern
  if t.pathExists root then
    let entries ← walkFrom t root
    return sortPaths ((entries.filter (isContract pattern)).map (·.1))
  else return []

/-- the documents at and below a root -/
def documentation (t : FileTree) (root : Path) : Except AuditError DocumentationPresence := do
  let entries ← walkFrom t root
  return .ofNames (entries.filterMap walkedFileName?)

end ContractAudit
