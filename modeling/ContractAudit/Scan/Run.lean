import ContractAudit.Config
import ContractAudit.Discovery
import ContractAudit.Rule.Catalogue
import ContractAudit.Scan.Report
import ContractAudit.Scan.Statistics

/-!
# Scanning

* `scanText`: the findings in a text, gathered from one rule after the other.
* `readSource`: the text of a contract, or why it cannot be read.
* `scanFile`: the findings in a file; one that cannot be read has none.
* `scanFiles`: the findings of files, where only files with findings have an entry.
* `scanDirectory`: the findings of the contracts at and below a root.
* `scan`: report and statistics of a file or a directory.
-/

namespace ContractAudit

/-- the findings in a text, gathered from one rule after the other -/
def scanText (s : List Char) : List Finding :=
  (findingsPerRule s).foldl (fun found part => found ++ part.2) []

def readSource (t : FileTree) (file : Path) : Except AuditError (List Char) :=
  match t.readText file with
  | .ok text => .ok text.toList
  | .error e => .error (.fileRead file e)

/-- the findings in a file, or why it cannot be read -/
def tryScanFile (t : FileTree) (file : Path) : Except AuditError (List Finding) :=
  (readSource t file).map scanText

/-- the findings in a file; one that cannot be read has none -/
def scanFile (t : FileTree) (file : Path) : List Finding :=
  match tryScanFile t file with
  | .ok fs => fs
  | .error _ => []

/-- the results with those of one more file, if it has findings -/
def addScanned (t : FileTree) (r : ScanResults) (file : Path) : ScanResults :=
  match scanFile t file with
  | [] => r
  | fs => r.insert file fs

/-- the findings of files -/
def scanFiles (t : FileTree) (files : List Path) : ScanResults :=
  files.foldl (addScanned t) .empty

/-- the findings of the contracts at and below a root -/
def scanDirectory (t : FileTree) (root : Path) (pattern : String) :
    Except AuditError ScanResults :=
  (discover t root pattern).map (scanFiles t)

/-- what a scan is told apart from its root -/
structure ScanOptions where
  /-- the configuration file, if it is not the one that belongs to the root -/
  config : Option Path
  /-- the pattern, if it is not the one of the configuration -/
  pattern : Option String
  deriving DecidableEq

/-- what a scan brings -/
structure ScanOutput where
  report : ScanReport
  statistics : ScanStatistics
  deriving DecidableEq

namespace ScanOutput

/-- what a scan of these files brings -/
def ofFiles (t : FileTree) (files : List Path) : ScanOutput :=
  let results := scanFiles t files
  ⟨.ofResults results, .ofResults files.length results⟩

end ScanOutput

/-- the files that a scan looks at: a file alone, whatever its name, or the contracts below -/
def scannedFiles (t : FileTree) (root : Path) (pattern : String) :
    Except AuditError (List Path) :=
  if t.isFile root then .ok [root] else discover t root pattern

def scan (t : FileTree) (root : Path) (o : ScanOptions) : Except AuditError ScanOutput := do
  let config ← Config.loadFor t root o.config
  let files ← scannedFiles t root (o.pattern.getD config.pattern)
  return .ofFiles t files

end ContractAudit
