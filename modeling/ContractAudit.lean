import ContractAudit.Analysis.Complexity
import ContractAudit.Analysis.Documentation
import ContractAudit.Analysis.FileMetrics
import ContractAudit.Analysis.Gas
import ContractAudit.Analysis.Quality
import ContractAudit.Analysis.ScoreNumber
import ContractAudit.Audit.Assessment
import ContractAudit.Audit.Id
import ContractAudit.Audit.Metrics
import ContractAudit.Audit.Report
import ContractAudit.Audit.Run
import ContractAudit.Audit.Status
import ContractAudit.Bounds
import ContractAudit.CommandLine.Command
import ContractAudit.CommandLine.Run
import ContractAudit.CommandLine.Words
import ContractAudit.Config
import ContractAudit.Decimal.Binary
import ContractAudit.Decimal.LongRow
import ContractAudit.Decimal.Scaled
import ContractAudit.Decimal.Shortest
import ContractAudit.Decimal.Text
import ContractAudit.Discovery
import ContractAudit.Error
import ContractAudit.FileTree.Basic
import ContractAudit.FileTree.Disk
import ContractAudit.FileTree.Edit
import ContractAudit.FileTree.Resolve
import ContractAudit.FileTree.Walk
import ContractAudit.Finding
import ContractAudit.Glob
import ContractAudit.Json.Numeral
import ContractAudit.Json.Pretty
import ContractAudit.Json.Reader
import ContractAudit.Json.Record
import ContractAudit.Json.Value
import ContractAudit.LinePattern
import ContractAudit.Main
import ContractAudit.Ordered
import ContractAudit.Path
import ContractAudit.Piece
import ContractAudit.Proofs.ArithmeticFindings
import ContractAudit.Proofs.AuditEnds
import ContractAudit.Proofs.AuditIds
import ContractAudit.Proofs.AuditOutcomes
import ContractAudit.Proofs.AuditReports
import ContractAudit.Proofs.AuditStarts
import ContractAudit.Proofs.Calendar
import ContractAudit.Proofs.Documents
import ContractAudit.Proofs.Dominance
import ContractAudit.Proofs.EqualTrees
import ContractAudit.Proofs.ExactScores
import ContractAudit.Proofs.ExitCodes
import ContractAudit.Proofs.Fields
import ContractAudit.Proofs.FileChanges
import ContractAudit.Proofs.FloatOrder
import ContractAudit.Proofs.FloatRange
import ContractAudit.Proofs.FloatText
import ContractAudit.Proofs.FoundContracts
import ContractAudit.Proofs.JoinedTexts
import ContractAudit.Proofs.JsonLanguage
import ContractAudit.Proofs.JsonText
import ContractAudit.Proofs.JsonValues
import ContractAudit.Proofs.Lifecycle
import ContractAudit.Proofs.LineFindings
import ContractAudit.Proofs.Locations
import ContractAudit.Proofs.Margins
import ContractAudit.Proofs.Numerals
import ContractAudit.Proofs.OrderedMaps
import ContractAudit.Proofs.PathOrder
import ContractAudit.Proofs.PatternLanguages
import ContractAudit.Proofs.Patterns
import ContractAudit.Proofs.PrintedFindings
import ContractAudit.Proofs.RawTexts
import ContractAudit.Proofs.RecordShapes
import ContractAudit.Proofs.Records
import ContractAudit.Proofs.Reordered
import ContractAudit.Proofs.RepeatedAudits
import ContractAudit.Proofs.RiskScores
import ContractAudit.Proofs.RuleFindings
import ContractAudit.Proofs.SavedReports
import ContractAudit.Proofs.ScanAudit
import ContractAudit.Proofs.ScanReports
import ContractAudit.Proofs.ScanVerdicts
import ContractAudit.Proofs.ScoreRanges
import ContractAudit.Proofs.SilencedSources
import ContractAudit.Proofs.SmallForms
import ContractAudit.Proofs.ShownTexts
import ContractAudit.Proofs.Statistics
import ContractAudit.Proofs.StoredReports
import ContractAudit.Proofs.TextFactors
import ContractAudit.Proofs.TextOrder
import ContractAudit.Proofs.Thresholds
import ContractAudit.Proofs.Timestamps
import ContractAudit.Proofs.UnfilledReports
import ContractAudit.Proofs.UnreadableContracts
import ContractAudit.Proofs.VariedReports
import ContractAudit.Proofs.Walks
import ContractAudit.Report.Console
import ContractAudit.Report.Files
import ContractAudit.Report.Persisted
import ContractAudit.Report.Plain
import ContractAudit.Risk
import ContractAudit.Rule
import ContractAudit.Rule.Catalogue
import ContractAudit.Scan.Report
import ContractAudit.Scan.Results
import ContractAudit.Scan.Run
import ContractAudit.Scan.Statistics
import ContractAudit.Severity
import ContractAudit.Sha256
import ContractAudit.Text.Blank
import ContractAudit.Text.Cased
import ContractAudit.Text.Digits
import ContractAudit.Text.Factor
import ContractAudit.Text.Lines
import ContractAudit.Text.Lowercase
import ContractAudit.Text.Ranges
import ContractAudit.Text.Raw
import ContractAudit.Text.WordChar
import ContractAudit.Time.Calendar
import ContractAudit.Time.Instant
import ContractAudit.Time.Rfc3339
import ContractAudit.Toml.Quoted
import ContractAudit.Toml.Reader
import ContractAudit.Toml.Record
import ContractAudit.Toml.Value
import ContractAudit.Toml.Word
import ContractAudit.Proofs.OverlappingFindings
import ContractAudit.Proofs.ListedFiles
