import ContractAudit.Audit.Run
import ContractAudit.FileTree.Edit
import ContractAudit.Report.Console
import ContractAudit.Report.Persisted
import ContractAudit.Report.Plain

/-!
# Keeping reports in files

* `OutputFormat`: how a scan is shown.
* `ScanReport.save`: keep the report of a scan.
* `AuditReport.saveBy`, `AuditReport.save`: keep the report of an audit in two files, one for
  programs and one for readers.
* `auditAndSave`: audit a project and keep the report.

An operation that changes files gives the tree after it also when it fails.
-/

namespace ContractAudit

/-- how a scan is shown -/
inductive OutputFormat
  | console
  | json
  deriving DecidableEq

namespace OutputFormat

/-- the name of a format in answers -/
def name : OutputFormat → String
  | console => "console"
  | json => "json"

/-- the format of a name in any case -/
def ofText? (s : String) : Option OutputFormat :=
  match String.ofList (Text.lowercase s.toList) with
  | "console" | "text" => some console
  | "json" => some json
  | _ => none

end OutputFormat

namespace ScanReport

/-- the report of a scan in a format -/
def render (r : ScanReport) : OutputFormat → String
  | .console => Console.scan r
  | .json => r.write

/-- keep the report of a scan in a file -/
def save (t : FileTree) (r : ScanReport) (format : OutputFormat) (file : Path) :
    FileTree × Except AuditError Unit :=
  match t.writeText file (r.render format) with
  | .error e => (t, .error (.io e))
  | .ok t => (t, .ok ())

end ScanReport

namespace AuditReport

/-- the file for programs that a report is kept in -/
def jsonFile (r : AuditReport) (directory : Path) : Path :=
  directory.join (.mk ("audit_report_" ++ r.auditId ++ ".json"))

/-- the file for readers that a report is kept in -/
def textFile (r : AuditReport) (directory : Path) : Path :=
  directory.join (.mk ("audit_report_" ++ r.auditId ++ ".txt"))

/-- keep the report of an audit in a directory, which is made if there is none; the answer is the
file for programs -/
def saveBy (write : FileTree.TextWriter) (t : FileTree) (r : AuditReport) (directory : Path) :
    FileTree × Except AuditError Path :=
  match t.makeDirectories directory with
  | (t, some e) => (t, .error (.io e))
  | (t, none) =>
    match write t (r.jsonFile directory) r.write with
    | (t, some e) => (t, .error (.io e))
    | (t, none) =>
      match write t (r.textFile directory) (Plain.audit r) with
      | (t, some e) => (t, .error (.io e))
      | (t, none) => (t, .ok (r.jsonFile directory))

/-- keep the report of an audit where there is room for it -/
def save (t : FileTree) (r : AuditReport) (directory : Path) : FileTree × Except AuditError Path :=
  saveBy FileTree.putText t r directory

end AuditReport

/-- an audit whose report is kept -/
structure SavedAudit where
  report : AuditReport
  jsonFile : Path
  deriving DecidableEq

def auditAndSave (t : FileTree) (root : Path) (o : AuditOptions) (period : AuditPeriod) :
    FileTree × Except AuditError SavedAudit :=
  match Config.loadFor t root o.config with
  | .error e => (t, .error e)
  | .ok config =>
    let report := auditWith t root o config period
    let (t, saved) := report.save t (o.outputDirectory.getD config.outputDirectory)
    (t, saved.map fun file => ⟨report, file⟩)

end ContractAudit
