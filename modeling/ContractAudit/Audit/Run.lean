import ContractAudit.Analysis.FileMetrics
import ContractAudit.Audit.Id
import ContractAudit.Audit.Report
import ContractAudit.Scan.Run

/-!
# Auditing

* `auditFile`: the findings in a file as an audit shows them.
* `auditOutcome`: what an audit of a project brings; nothing if it has no contracts.
* `comprehensiveAudit`: the report of an audit.  There always is one, for a failure is put down in
  the report.
* `audit`: an audit with a configuration.

The instants at which an audit starts and ends are given from outside.
-/

namespace ContractAudit

def auditFile (t : FileTree) (file : Path) : List Finding := (scanFile t file).map (·.forAudit)

/-- the findings in sources, one source after the other, as an audit shows them -/
def auditFindings (sources : List (List Char)) : List Finding :=
  sources.flatMap fun s => (scanText s).map (·.forAudit)

/-- the metrics of a project with these sources and documents -/
def projectMetrics (sources : List (List Char)) (documents : DocumentationPresence) :
    Except AuditError (AuditMetrics Float) :=
  AuditMetrics.aggregate (sources.map FileMetrics.ofSource)
    (securityScore ((auditFindings sources).map (·.severity))) documents.score

/-- what an audit of these sources brings with these metrics -/
def AuditOutcome.ofSources (sources : List (List Char)) (metrics : AuditMetrics Float) :
    AuditOutcome :=
  let found := auditFindings sources
  ⟨found, metrics, auditRecommendations found metrics, .ofFindings found metrics⟩

def auditOutcome (t : FileTree) (root : Path) (pattern : String) :
    Except AuditError (Option AuditOutcome) := do
  match ← discover t root pattern with
  | [] => return none
  | files =>
    let sources ← files.mapM (readSource t)
    let documents ← documentation t root
    let metrics ← projectMetrics sources documents
    return some (.ofSources sources metrics)

/-- the name of a project: the name of its directory, wherever links lead; if that cannot be found
out, the name is taken from the path as it is written -/
def projectName (t : FileTree) (root : Path) : String :=
  let name :=
    match t.realLocation root with
    | .ok l => l.getLast?
    | .error _ => root.fileName?
  (name.map RawText.text).getD "unknown"

/-- when an audit starts and when it ends -/
structure AuditPeriod where
  start : Instant
  finish : Instant
  deriving DecidableEq

def comprehensiveAudit (t : FileTree) (root : Path) (pattern : String) (level : AuditLevel)
    (period : AuditPeriod) : AuditReport :=
  let report :=
    (AuditReport.pending (auditId period.start root) (projectName t root) level
      period.start).advance .inProgress
  match auditOutcome t root pattern with
  | .ok (some outcome) => report.complete outcome period.finish
  | .ok none => report.completeEmpty pattern period.finish
  | .error e => report.fail e.message period.finish

/-- what an audit is told apart from its root -/
structure AuditOptions where
  /-- the configuration file, if it is not the one that belongs to the root -/
  config : Option Path
  /-- the level, if it is not the one of the configuration -/
  level : Option AuditLevel
  /-- the pattern, if it is not the one of the configuration -/
  pattern : Option String
  /-- the directory for reports, if it is not the one of the configuration -/
  outputDirectory : Option Path
  deriving DecidableEq

/-- the report of an audit with a configuration, which the options overrule -/
def auditWith (t : FileTree) (root : Path) (o : AuditOptions) (config : Config)
    (period : AuditPeriod) : AuditReport :=
  comprehensiveAudit t root (o.pattern.getD config.pattern) (o.level.getD config.level) period

def audit (t : FileTree) (root : Path) (o : AuditOptions) (period : AuditPeriod) :
    Except AuditError AuditReport := do
  let config ← Config.loadFor t root o.config
  return auditWith t root o config period

end ContractAudit
