import ContractAudit.FileTree.Edit

/-!
# File trees and the disk

The only module that looks at the disk and changes it.  Names come from it and go to it as texts, so
a file with a name that is none cannot be opened here.

* `Disk.workingDirectory`: an empty tree in the working directory.
* `Disk.load`: a tree with all that a path leads through, and with all that is below its end if
  that is wanted.
* `Disk.store`: put on the disk what a tree has more than another.
-/

namespace ContractAudit.Disk

/-- the location of an absolute path that has no dots -/
def locationOf (path : String) : Location :=
  ((splitSlash (RawText.ofString path).bytes).filter (· ≠ [])).map RawText.mk

/-- the path of a location -/
def pathOf (l : Location) : String := "/" ++ "/".intercalate l

def workingDirectory : IO FileTree := do
  return ⟨[], locationOf (← IO.currentDir).toString⟩

/-- the tree with an entry, and with directories above it -/
def addEntry (t : FileTree) (l : Location) (e : Entry) : FileTree :=
  let above := (List.range l.length).map l.take
  (above.foldl (fun t d => t.insert d .directory) t).insert l e

/-- what an action answers, if it does not fail -/
def attempt {α : Type} (action : IO α) : IO (Option α) := do
  try return some (← action)
  catch _ => return none

/-- the tree with an entry of the disk that is no link, and with all below it if that is wanted;
what cannot be opened is kept as an entry that is closed -/
partial def loadEntry (below : Bool) (t : FileTree) (l : Location) : IO FileTree := do
  let place := (← IO.currentDir) / pathOf l
  let some about ← attempt place.symlinkMetadata | return addEntry t l .lockedFile
  match about.type with
  | .dir =>
    if below then
      let some es ← attempt place.readDir | return addEntry t l .lockedDirectory
      let t := addEntry t l .directory
      es.foldlM (fun t e => loadEntry below t (l ++ [.ofString e.fileName])) t
    else return addEntry t l .directory
  | .file =>
    let some content ← attempt (IO.FS.readBinFile place) | return addEntry t l .lockedFile
    return addEntry t l (.file content)
  | .symlink => return addEntry t l (.link "")
  | .other => return t

/-- the tree with what a path, given by the pieces between its slashes, leads to, if it is there -/
def loadEnd (below : Bool) (t : FileTree) (pieces : List (List UInt8)) : IO FileTree := do
  let textOf (pieces : List (List UInt8)) : String := (RawText.mk (Path.joinPieces pieces)).text
  let place := (← IO.currentDir) / textOf pieces
  let some real ← attempt (IO.FS.realPath place) | return t
  let t ← loadEntry below t (locationOf real.toString)
  if (← place.symlinkMetadata).type == .symlink then
    let above ← IO.FS.realPath ((← IO.currentDir) / textOf (pieces.dropLast ++ [[dotByte]]))
    let name : RawText := ⟨pieces.getLast?.getD []⟩
    return addEntry t (locationOf above.toString ++ [name]) (.link real.toString)
  else return t

/-- the tree with all that a path leads through, and with all below its end if that is wanted -/
def load (below : Bool) (t : FileTree) (p : Path) : IO FileTree := do
  let pieces := splitSlash p.raw.bytes
  let starts := ((List.range pieces.length).map pieces.take).filter fun s => s ≠ [] ∧ s ≠ [[]]
  let t ← starts.foldlM (loadEnd false) t
  loadEnd below t pieces

/-- make an entry on the disk -/
def make (l : Location) (e : Entry) : IO Unit := do
  let place := (← IO.currentDir) / pathOf l
  match e with
  | .file content => IO.FS.writeBinFile place content
  | .directory => if !(← place.isDir) then IO.FS.createDir place
  | _ => return

/-- the entry has to be made: there is none, or a file with other bytes -/
def isNew (before : Option Entry) (e : Entry) : Bool :=
  match before, e with
  | some (.file old), .file content => old.data != content.data
  | some _, _ => false
  | none, _ => true

/-- put on the disk what a tree has more than another -/
def store (before after : FileTree) : IO Unit := do
  for (l, e) in after.entries do
    if isNew (before.entry? l) e then make l e

end ContractAudit.Disk
