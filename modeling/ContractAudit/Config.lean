import ContractAudit.Audit.Status
import ContractAudit.Error
import ContractAudit.FileTree.Resolve
import ContractAudit.Toml.Reader
import ContractAudit.Toml.Record

/-!
# Configuration

A project may have a configuration file.  It says which files are contracts, how deep an audit
goes, and where reports are kept.

* `Config`: the settings.  What a file does not say is as in `Config.default`.
* `Config.ofToml?`: the settings that a document gives.
* `Config.check`: settings with a pattern that is none are refused.
* `Config.load`: the settings in a file; a missing file leaves everything at its default.
* `Config.starter`: a file to begin with, which gives the default settings.
-/

namespace ContractAudit

/-- the settings of scans and audits -/
structure Config where
  /-- the pattern that names of contracts fit -/
  pattern : String
  level : AuditLevel
  /-- the directory where reports are kept -/
  outputDirectory : Path
  deriving DecidableEq

namespace Config

def fileName : String := ".omega-audit.toml"

def default : Config := ⟨"*.omega", .standard, ⟨"audit_reports"⟩⟩

/-- a level by its exact name -/
def level? (x : Toml) : Option AuditLevel := x.choice?.bind AuditLevel.ofName?

/-- the pattern in the settings of scans -/
def scanPart? (x : Toml) : Option String := do
  let field ← x.record? ["pattern"]
  Toml.optional Toml.text? default.pattern (field "pattern")

/-- the level and the directory in the settings of audits -/
def auditPart? (x : Toml) : Option (AuditLevel × Path) := do
  let field ← x.record? ["level", "output_dir"]
  let level ← Toml.optional level? default.level (field "level")
  let directory ← Toml.optional (fun x => x.text?.map Path.mk) default.outputDirectory
    (field "output_dir")
  return (level, directory)

def ofToml? (document : Toml.Entries) : Option Config := do
  let pattern ← Toml.optional scanPart? default.pattern (document.lookup "scan")
  let (level, directory) ← Toml.optional auditPart? (default.level, default.outputDirectory)
    (document.lookup "audit")
  return ⟨pattern, level, directory⟩

/-- the settings if their pattern is one -/
def check (c : Config) : Except AuditError Config :=
  match Glob.parse c.pattern with
  | .ok _ => .ok c
  | .error e => .error (.config (.invalidPattern c.pattern e))

/-- the settings that a text gives -/
def ofText (text : String) : Except AuditError Config :=
  match (Toml.parse text).bind ofToml? with
  | some c => c.check
  | none => .error .toml

def load (t : FileTree) (file : Path) : Except AuditError Config :=
  if t.pathExists file then
    match t.readText file with
    | .ok text => ofText text
    | .error e => .error (.io e)
  else .ok default

/-- the configuration file of what is scanned or audited: it stands in that directory, or beside
that file -/
def fileFor (t : FileTree) (root : Path) : Path :=
  if t.isDirectory root then root.join ⟨fileName⟩
  else match root.parent? with
    | some above => above.join ⟨fileName⟩
    | none => ⟨fileName⟩

/-- the settings in a given file, or in the one that belongs to the root -/
def loadFor (t : FileTree) (root : Path) (file : Option Path) : Except AuditError Config :=
  load t (file.getD (fileFor t root))

/-- a file to begin with -/
def starter : String :=
  "# omega-audit configuration\n" ++
  "\n" ++
  "[scan]\n" ++
  "# File-name glob selecting contract sources.\n" ++
  "pattern = \"*.omega\"\n" ++
  "\n" ++
  "[audit]\n" ++
  "# Audit level (BASIC, STANDARD, COMPREHENSIVE, CRITICAL).\n" ++
  "level = \"STANDARD\"\n" ++
  "\n" ++
  "# Where audit reports are written.\n" ++
  "output_dir = \"audit_reports\"\n"

end Config

end ContractAudit
