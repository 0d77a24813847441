import ContractAudit.CommandLine.Run
import ContractAudit.FileTree.Disk
import Std.Time.DateTime.Timestamp

/-!
# The program

The command line on the real disk with the real clock.
-/

namespace ContractAudit

/-- the instant that the clock shows -/
def now : IO Instant := do
  let nanos := (← Std.Time.Timestamp.now).toNanosecondsSinceUnixEpoch.toInt
  return ⟨nanos / 1000000000, (nanos % 1000000000).toNat⟩

/-- the root of a command, which is looked at with all below it -/
def Command.root? : Command → Option Path
  | scan r => some r.path
  | audit r => some r.path
  | _ => none

/-- the other paths of a command -/
def Command.otherPaths : Command → List Path
  | scan r => r.options.config.toList ++ r.output.toList
  | audit r => r.config.toList ++ r.outputDirectory.toList
  | _ => []

/-- the part of the disk that a command needs -/
def treeFor (c : Command) : IO FileTree := do
  let t ← Disk.workingDirectory
  let t ← Disk.load false t ⟨Config.fileName⟩
  let t ← c.otherPaths.foldlM (Disk.load false) t
  match c.root? with
  | none => return t
  | some root =>
    let t ← Disk.load true t root
    Disk.load false t (Config.fileFor t root)

/-- run a command line, and tell its exit code -/
def runProgram (words : List String) : IO Nat := do
  let start ← now
  let before ←
    match Command.ofArguments words with
    | .ok c => treeFor c
    | .error _ => Disk.workingDirectory
  let outcome := runArguments before words ⟨start, ← now⟩
  Disk.store before outcome.tree
  IO.print outcome.output
  IO.eprint outcome.errors
  return outcome.exitCode

end ContractAudit

def main (words : List String) : IO UInt32 := do
  try
    return UInt32.ofNat (← ContractAudit.runProgram words)
  catch e =>
    IO.eprintln ("Error: " ++ e.toString)
    return 2
