import ContractAudit.Audit.Report
import ContractAudit.Decimal.Text
import ContractAudit.Path
import ContractAudit.Scan.Report
import ContractAudit.Scan.Statistics

/-!
# Reports on the console

* `Console.scan`: the report of a scan, finding by finding.
* `Console.statistics`: its statistics.
* `Console.auditSummary`: an audit on one screen.
* `Console.ruleTable`: the rules in columns.
-/

namespace ContractAudit.Console

/-- a line that is set in by two spaces -/
def line (s : String) : String := "  " ++ s ++ "\n"

/-- a severity in brackets, filled up to the widest -/
def severityTag : Severity → String
  | .critical => "[CRITICAL]"
  | .high => "[HIGH]    "
  | .medium => "[MEDIUM]  "
  | .low => "[LOW]     "
  | .info => "[INFO]    "

/-- one finding in a file -/
def finding (file : String) (f : Finding) : String :=
  line (severityTag f.severity ++ " " ++ f.ruleId ++ " " ++ f.title) ++
    line ("         at " ++ file ++ ":" ++ toString f.lineNumber) ++
    line ("         code: " ++ f.snippet) ++
    line ("         fix: " ++ f.recommendation) ++ "\n"

/-- the findings file by file -/
def findings (files : List (String × List Finding)) : String :=
  String.join (files.flatMap fun (file, fs) => fs.map (finding file))

/-- the severities that occur, with their counts -/
def severityLines (n : SeverityCounts) : String :=
  String.join ((Severity.descending.filter fun s => 0 < n.get s).map fun s =>
    line ("  " ++ s.name ++ ": " ++ toString (n.get s)))

def scan (r : ScanReport) : String :=
  let s := r.summary
  (if s.totalVulnerabilities = 0 then "\n" ++ line "No security findings detected." ++ "\n"
    else "\n" ++ line (toString s.totalVulnerabilities ++ " finding(s) detected:") ++ "\n" ++
      findings r.detailedFindings) ++
  line "Security Scan Summary:" ++
  line ("Files with findings: " ++ toString s.totalFilesScanned) ++
  line ("Vulnerabilities found: " ++ toString s.totalVulnerabilities) ++
  line ("Risk level: " ++ s.riskLevel.name) ++
  line ("Risk score: " ++ toString s.riskScore) ++
  (if 0 < s.totalVulnerabilities then
      "\n" ++ line "Severity breakdown:" ++ severityLines s.severityBreakdown
    else "") ++
  "\n" ++ line "Recommendations:" ++
  String.join (r.recommendations.map fun a => line ("  " ++ a)) ++ "\n"

/-- a line of fifty equals signs -/
def doubleRule : String := line (String.ofList (List.replicate 50 '='))

def statistics (s : ScanStatistics) : String :=
  doubleRule ++ line "SCAN STATISTICS" ++ doubleRule ++
  line ("Files with vulnerabilities: " ++ toString s.filesWithVulnerabilities ++ "/" ++
    toString s.totalFiles) ++
  line ("Total vulnerabilities: " ++ toString s.totalVulnerabilities) ++
  line "Most common vulnerabilities:" ++
  String.join (s.mostCommon.map fun (id, n) => line ("  " ++ id ++ ": " ++ toString n))

/-- a line for something that may be missing -/
def lineOf {α : Type} (x : Option α) (text : α → String) : String :=
  match x with
  | none => ""
  | some x => line (text x)

/-- an audit on one screen, with the place where its report is saved -/
def auditSummary (r : AuditReport) (savedTo : Path) : String :=
  "\n" ++ line "Audit Summary:" ++
  line ("Audit ID: " ++ r.auditId) ++
  line ("Project: " ++ r.projectName) ++
  line ("Level: " ++ r.level.name) ++
  line ("Status: " ++ r.status.name) ++
  lineOf r.durationMinutes (fun x => "Duration: " ++ Decimal.fixedOne x ++ " minutes") ++
  lineOf r.metrics (fun m => "Security Score: " ++ Decimal.fixedOne m.securityScore ++ "/100") ++
  line ("Risk Level: " ++ r.risk.riskLevel.name) ++
  (if r.findings.isEmpty then ""
    else line ("Total Findings: " ++ toString r.findings.length) ++
      severityLines r.risk.severityBreakdown) ++
  line ("Report saved to: " ++ savedTo.text) ++ "\n"

/-- a text in a column, which is as wide as the text at least -/
def column (width : Nat) (s : String) : String :=
  s ++ String.ofList (List.replicate (width - s.length) ' ') ++ " "

/-- one row of the table of rules -/
def ruleRow (id title severity description : String) : String :=
  column 12 id ++ column 38 title ++ column 10 severity ++ description ++ "\n"

/-- the rules in columns, below a head and a line of a hundred dashes -/
def ruleTable (rules : List RuleInfo) : String :=
  ruleRow "ID" "TITLE" "SEVERITY" "DESCRIPTION" ++
  String.ofList (List.replicate 100 '-') ++ "\n" ++
  String.join (rules.map fun r => ruleRow r.id r.title r.severity.name r.description)

end ContractAudit.Console
