import ContractAudit.Analysis.ScoreNumber
import ContractAudit.Path
import ContractAudit.Text.Factor
import ContractAudit.Text.Lowercase

/-!
# Documentation of a project

A document is a file whose extension is `md` or `txt`.  Its name, as it is shown, tells what it is
about, whatever the case of its letters.

* `DocumentationPresence`: which documents there are.
* `DocumentationPresence.ofNames`: which there are among files with these names.
* `DocumentationPresence.score`: 40 points for a readme, 30 for the interface and 30 for security.
-/

namespace ContractAudit

open Text

/-- which documents there are -/
structure DocumentationPresence where
  readme : Bool
  apiDocs : Bool
  securityDocs : Bool
  deriving DecidableEq

def isDocumentName (name : RawText) : Bool :=
  match extension? name with
  | some e => e == "md" || e == "txt"
  | none => false

namespace DocumentationPresence

def none : DocumentationPresence := ⟨false, false, false⟩

/-- one of two projects has the document -/
def or (a b : DocumentationPresence) : DocumentationPresence :=
  ⟨a.readme || b.readme, a.apiDocs || b.apiDocs, a.securityDocs || b.securityDocs⟩

/-- what a file with this name is about -/
def ofName (name : RawText) : DocumentationPresence :=
  if isDocumentName name then
    let small := lowercase name.text.toList
    ⟨startsWith "readme".toList small, hasFactor "api".toList small,
      hasFactor "security".toList small⟩
  else none

def ofNames (names : List RawText) : DocumentationPresence :=
  (names.map ofName).foldl or none

open ScoreNumber in
/-- the points for the documents that there are -/
def score {α : Type} [ScoreNumber α] (p : DocumentationPresence) : α :=
  let points (there : Bool) (n : Nat) : α := ofCount (if there then n else 0)
  add (add (points p.readme 40) (points p.apiDocs 30)) (points p.securityDocs 30)

end DocumentationPresence

end ContractAudit
