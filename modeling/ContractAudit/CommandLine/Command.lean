import ContractAudit.Audit.Run
import ContractAudit.CommandLine.Words

/-!
# Commands

* `Command`: what the program can be told to do.
* `Command.ofArguments`: the command of a command line.
-/

namespace ContractAudit

open CommandLine

/-- what a scan is told -/
structure ScanRequest where
  path : Path
  options : ScanOptions
  /-- how the scan is shown, as it is written -/
  format : String
  /-- the file that the report goes to, if it is not shown -/
  output : Option Path
  /-- show statistics as well -/
  statistics : Bool
  deriving DecidableEq

/-- what an audit is told -/
structure AuditRequest where
  path : Path
  config : Option Path
  /-- the level, as it is written -/
  level : Option String
  pattern : Option String
  outputDirectory : Option Path
  deriving DecidableEq

/-- what the program can be told to do -/
inductive Command
  | scan (request : ScanRequest)
  | audit (request : AuditRequest)
  | listRules (format : String)
  /-- write a configuration file to begin with -/
  | init (force : Bool)
  deriving DecidableEq

namespace Command

/-- the options that all commands know -/
def commonOptions : List OptionSpec :=
  [⟨"verbose", some 'v', .flag⟩, ⟨"help", some 'h', .interruption .help⟩]

/-- the options in front of a command -/
def globalOptions : List OptionSpec :=
  commonOptions ++ [⟨"version", some 'V', .interruption .version⟩]

def scanOptions : List OptionSpec :=
  [⟨"config", some 'c', .path⟩, ⟨"pattern", some 'p', .text⟩, ⟨"format", some 'f', .text⟩,
   ⟨"output", some 'o', .path⟩, ⟨"stats", none, .flag⟩]

def auditOptions : List OptionSpec :=
  [⟨"config", some 'c', .path⟩, ⟨"level", some 'l', .text⟩, ⟨"pattern", some 'p', .text⟩,
   ⟨"output-dir", none, .path⟩]

def listRulesOptions : List OptionSpec := [⟨"format", some 'f', .text⟩]

def initOptions : List OptionSpec := [⟨"force", none, .flag⟩]

/-- what is given to a command -/
def given (options : List OptionSpec) (role : PlainRole) (words : List String) :
    Except Interruption Given :=
  (readWords (options ++ commonOptions) role .nothing words).map (·.1)

/-- the path that is given, or the working directory -/
def pathOf (g : Given) : Path := ⟨g.path.getD "."⟩

/-- the path that is given to an option -/
def pathAt (g : Given) (name : String) : Option Path := (g.value? name).map Path.mk

def readScan (words : List String) : Except Interruption Command := do
  let g ← given scanOptions .path words
  return .scan
    { path := pathOf g
      options := ⟨pathAt g "config", g.value? "pattern"⟩
      format := (g.value? "format").getD "console"
      output := pathAt g "output"
      statistics := g.has "stats" }

def readAudit (words : List String) : Except Interruption Command := do
  let g ← given auditOptions .path words
  return .audit
    { path := pathOf g
      config := pathAt g "config"
      level := g.value? "level"
      pattern := g.value? "pattern"
      outputDirectory := pathAt g "output-dir" }

def readListRules (words : List String) : Except Interruption Command := do
  let g ← given listRulesOptions .nothing words
  return .listRules ((g.value? "format").getD "table")

def readInit (words : List String) : Except Interruption Command := do
  let g ← given initOptions .nothing words
  return .init (g.has "force")

/-- the reader of the words after the name of a command -/
def reader? : String → Option (List String → Except Interruption Command)
  | "scan" => some readScan
  | "audit" => some readAudit
  | "list-rules" => some readListRules
  | "init" => some readInit
  | _ => none

/-- the names of commands, where help is one too -/
def isName (s : String) : Bool := s == "help" || (reader? s).isSome

/-- help asks for help on a command at most -/
def readHelp : List String → Interruption
  | [] => .help
  | [s] => if isName s then .help else .misuse
  | _ => .misuse

def ofArguments (words : List String) : Except Interruption Command := do
  let (_, words) ← readWords globalOptions .command .nothing words
  match words with
  | [] => throw .misuse
  | "help" :: words => throw (readHelp words)
  | name :: words =>
    match reader? name with
    | some read => read words
    | none => throw .misuse

end Command

end ContractAudit
