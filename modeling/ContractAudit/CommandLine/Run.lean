import ContractAudit.CommandLine.Command
import ContractAudit.Report.Files

/-!
# Running commands

* `Outcome`: what a run leaves behind: the exit code, the two outputs and the file tree.
* `Command.run`: the outcome of a command.
* `runArguments`: the outcome of a command line.

A scan ends with 0 if its risk is LOW or INFO, an audit if its risk is not severe; otherwise they
end with 1.  A path that does not exist gives 1, everything else that goes wrong 2.
-/

namespace ContractAudit

/-- what a run leaves behind -/
structure Outcome where
  exitCode : Nat
  output : String
  /-- what is said about errors -/
  errors : String
  tree : FileTree

namespace Outcome

/-- the outcome of an error -/
def ofError (t : FileTree) (e : AuditError) : Outcome :=
  ⟨e.exitCode, "", "Error: " ++ e.message ++ "\n", t⟩

/-- the outcome with something said before its errors -/
def warned (o : Outcome) (warning : String) : Outcome := { o with errors := warning ++ o.errors }

/-- the outcome when a path does not exist -/
def notFound (t : FileTree) (what : String) (p : Path) : Outcome :=
  ⟨1, "", "Error: " ++ what ++ " not found: " ++ p.text ++ "\n", t⟩

end Outcome

def scanExitCode : RiskLevel → Nat
  | .low | .info => 0
  | _ => 1

def auditExitCode (l : RiskLevel) : Nat := if l.isSevere then 1 else 0

/-- show what a scan has brought, or keep it in a file -/
def showScan (t : FileTree) (r : ScanRequest) (format : OutputFormat) (brought : ScanOutput) :
    Outcome :=
  let exitCode := scanExitCode brought.report.summary.riskLevel
  let statistics := if r.statistics then Console.statistics brought.statistics else ""
  match r.output with
  | none => ⟨exitCode, brought.report.render format ++ statistics, "", t⟩
  | some file =>
    match brought.report.save t format file with
    | (t, .ok ()) => ⟨exitCode, statistics, "", t⟩
    | (t, .error e) => .ofError t e

def runScan (t : FileTree) (r : ScanRequest) : Outcome :=
  if !t.pathExists r.path then .notFound t "Path" r.path
  else
    let format := OutputFormat.ofText? r.format
    let warning :=
      if format.isNone then "Warning: unknown format '" ++ r.format ++ "', using console\n" else ""
    let outcome :=
      match scan t r.path r.options with
      | .ok brought => showScan t r (format.getD .console) brought
      | .error e => .ofError t e
    outcome.warned warning

/-- the level of a request, if it names one -/
def AuditRequest.readLevel (r : AuditRequest) : Except AuditError (Option AuditLevel) :=
  match r.level with
  | none => .ok none
  | some s =>
    match AuditLevel.ofText? s with
    | some l => .ok (some l)
    | none => .error (.config (.unknownLevel s))

def runAudit (t : FileTree) (r : AuditRequest) (period : AuditPeriod) : Outcome :=
  if !t.pathExists r.path then .notFound t "Project path" r.path
  else match r.readLevel with
    | .error e => .ofError t e
    | .ok level =>
      match auditAndSave t r.path ⟨r.config, level, r.pattern, r.outputDirectory⟩ period with
      | (t, .error e) => .ofError t e
      | (t, .ok saved) =>
        ⟨auditExitCode saved.report.risk.riskLevel,
          Console.auditSummary saved.report saved.jsonFile, "", t⟩

/-- the rules in a format; all but one format are a table -/
def rulesText (format : String) : String :=
  let rules := catalogue.map (·.about)
  if format = "json" then (Json.array (rules.map RuleInfo.toJson)).pretty ++ "\n"
  else Console.ruleTable rules

/-- the outcome of a new configuration, which replaces another only by force -/
def runInit (t : FileTree) (force : Bool) : Outcome :=
  let file : Path := ⟨Config.fileName⟩
  if t.pathExists file && !force then
    ⟨1, "", Config.fileName ++ " already exists. Use --force to overwrite.\n", t⟩
  else match t.writeText file Config.starter with
    | .error e => .ofError t (.io e)
    | .ok t => ⟨0, "Created " ++ Config.fileName ++ "\n", "", t⟩

def Command.run (c : Command) (t : FileTree) (period : AuditPeriod) : Outcome :=
  match c with
  | .scan r => runScan t r
  | .audit r => runAudit t r period
  | .listRules format => ⟨0, rulesText format, "", t⟩
  | .init force => runInit t force

/-- the name and the version of the program -/
def versionText : String := "omega-audit 0.3.1\n"

def helpText : String :=
  "Security scanner and audit engine for OMEGA contracts\n" ++
  "\n" ++
  "Usage: omega-audit [OPTIONS] <COMMAND>\n" ++
  "\n" ++
  "Commands:\n" ++
  "  scan        Scan a contract file or directory for vulnerabilities\n" ++
  "  audit       Run a comprehensive audit of a contract project\n" ++
  "  list-rules  List all available detection rules\n" ++
  "  init        Generate a starter .omega-audit.toml config file\n" ++
  "  help        Print this message or the help of the given subcommand(s)\n" ++
  "\n" ++
  "Options:\n" ++
  "  -v, --verbose  Enable debug logging\n" ++
  "  -h, --help     Print help\n" ++
  "  -V, --version  Print version\n"

/-- the outcome of words that are no command -/
def interrupted (t : FileTree) : CommandLine.Interruption → Outcome
  | .misuse => ⟨2, "", helpText, t⟩
  | .help => ⟨0, helpText, "", t⟩
  | .version => ⟨0, versionText, "", t⟩

def runArguments (t : FileTree) (words : List String) (period : AuditPeriod) : Outcome :=
  match Command.ofArguments words with
  | .ok c => c.run t period
  | .error i => interrupted t i

end ContractAudit
