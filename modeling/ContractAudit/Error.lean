import ContractAudit.FileTree.Basic
import ContractAudit.Glob

/-!
# Errors

Why a scan or an audit cannot be done, and how that is put into words.

* `ConfigError`: what is wrong with a configuration that can be read.
* `AuditError`: all causes.
* `AuditError.message`, `AuditError.exitCode`: their wording, and the exit code of the program.
-/

namespace ContractAudit

/-- what is wrong with a configuration that can be read -/
inductive ConfigError
  | invalidPattern (pattern : String) (cause : GlobError)
  | unknownLevel (name : String)
  deriving DecidableEq

def ConfigError.message : ConfigError → String
  | invalidPattern p e => "invalid scan.pattern '" ++ p ++ "': " ++ e.message
  | unknownLevel s => "unknown audit level '" ++ s ++ "'"

/-- why something cannot be done -/
inductive AuditError
  /-- a source cannot be read -/
  | fileRead (path : Path) (cause : IoError)
  /-- a directory cannot be walked -/
  | walk (path : Path) (cause : IoError)
  /-- a text is no pattern -/
  | pattern (cause : GlobError)
  /-- a configuration makes no sense -/
  | config (cause : ConfigError)
  /-- another file cannot be read or written -/
  | io (cause : IoError)
  /-- a text is no report -/
  | json
  /-- a text is no configuration -/
  | toml
  /-- metrics are asked for where there are no files -/
  | noFiles
  deriving DecidableEq

namespace AuditError

/-- the wording of an error; what is wrong with a text is not put into words -/
def message : AuditError → String
  | fileRead p e => "Failed to read " ++ p.text ++ ": " ++ e.message
  | walk p e =>
    "Directory walk error: IO error for operation on " ++ p.text ++ ": " ++ e.message
  | pattern e => "Invalid file pattern: " ++ e.message
  | config e => "Configuration error: " ++ e.message
  | io e => "IO error: " ++ e.message
  | json => "JSON error"
  | toml => "TOML parse error"
  | noFiles => "Internal error: cannot aggregate metrics over zero files"

/-- the exit code of the program after an error -/
def exitCode (_ : AuditError) : Nat := 2

end AuditError

end ContractAudit
