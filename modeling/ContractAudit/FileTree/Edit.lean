import ContractAudit.FileTree.Resolve

/-!
# Changing file trees

* `FileTree.writeFile`: write a file, a new one or the one that is there.
* `FileTree.TextWriter`: a way to write texts; `FileTree.putTextWithin` is that of a disk with
  little room.
* `FileTree.makeDirectory`, `FileTree.makeDirectories`: make one directory, or all on a path.
* `FileTree.makeLink`: make a symbolic link.
* `FileTree.remove`: take away a file, a link or a whole directory.

What fails in this way fails before anything is changed, except that `makeDirectories` keeps what
it has made.  A file that has been opened for writing may be left with a part of its text.
-/

namespace ContractAudit.FileTree

def writeFile (t : FileTree) (p : Path) (content : ByteArray) : Except IoError FileTree := do
  let l ← t.locate .fresh p
  match t.entry? l with
  | some .directory | some .lockedDirectory => throw .isADirectory
  | some .lockedFile => throw .notAllowed
  | _ => return t.insert l (.file content)

def writeText (t : FileTree) (p : Path) (s : String) : Except IoError FileTree :=
  t.writeFile p s.toUTF8

/-- a way to write a text into a file: the tree after it, and the error if there is one -/
abbrev TextWriter := FileTree → Path → String → FileTree × Option IoError

/-- write a text where every file that can be opened takes all of it -/
def putText : TextWriter := fun t p s =>
  match t.writeText p s with
  | .ok t => (t, none)
  | .error e => (t, some e)

/-- write a text where there is room for so many bytes; a file is emptied when it is opened, and
takes what there is room for -/
def putTextWithin (room : Nat) : TextWriter := fun t p s =>
  match t.writeFile p (s.toUTF8.extract 0 room) with
  | .ok t => (t, if s.utf8ByteSize ≤ room then none else some .noSpace)
  | .error e => (t, some e)

/-- the steps of a path without the slash at its end -/
def withoutSlash (steps : List PathStep) : List PathStep :=
  if steps.getLast? = some .slash then steps.dropLast else steps

/-- put an entry where a path leads, if there is none yet -/
def create (t : FileTree) (p : Path) (e : Entry) : Except IoError FileTree :=
  if p.raw.isEmpty then .error .notFound
  else if p.raw.bytes.contains 0 then .error .zeroCharacter
  else if isTooLong p then .error .nameTooLong
  else do
    let steps := withoutSlash p.steps
    let above ← t.follow .followed maxLinks (t.startOf p) (steps.dropLast ++ [.stay])
    match steps.getLast? with
    | some (.down name) =>
      if maxNameBytes < name.size then throw .nameTooLong
      else if (t.entry? (above ++ [name])).isSome then throw .alreadyExists
      else return t.insert (above ++ [name]) e
    | _ => throw .alreadyExists

def makeDirectory (t : FileTree) (p : Path) : Except IoError FileTree := t.create p .directory

def makeLink (t : FileTree) (p : Path) (target : RawText) : Except IoError FileTree :=
  t.create p (.link target)

/-- make a directory; that there is one already is as good -/
def ensureDirectory (t : FileTree) (p : Path) : Except IoError FileTree :=
  match t.makeDirectory p with
  | .ok t => .ok t
  | .error e => if t.isDirectory p then .ok t else .error e

/-- make a directory and those above it that are missing, at most `depth` of them -/
def makeDirectoriesUpTo (depth : Nat) (t : FileTree) (p : Path) : FileTree × Option IoError :=
  if p.components = [] then (t, none)
  else match t.ensureDirectory p with
    | .ok t => (t, none)
    | .error e =>
      if e ≠ .notFound then (t, some e)
      else match depth, p.parent? with
        | depth + 1, some above =>
          match makeDirectoriesUpTo depth t above with
          | (t, some e) => (t, some e)
          | (t, none) =>
            match t.ensureDirectory p with
            | .ok t => (t, none)
            | .error e => (t, some e)
        | _, _ => (t, some .noWholeTree)

/-- make a directory and those above it that are missing -/
def makeDirectories (t : FileTree) (p : Path) : FileTree × Option IoError :=
  makeDirectoriesUpTo p.components.length t p

/-- take away a file, a link or a whole directory -/
def remove (t : FileTree) (p : Path) : Except IoError FileTree := do
  let l ← t.locate .asItIs p
  return t.erase l

end ContractAudit.FileTree
