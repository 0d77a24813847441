import ContractAudit.Path

/-!
# File trees

A file tree is a finite set of entries, each at its place below the root, in the order in which
directories list them.

* `Entry`: a file with its bytes, a directory, or a symbolic link with its target; files and
  directories may be closed to everybody.
* `Location`: the names on the way from the root down to an entry; no name is a dot or two.  It is
  written and shown as a row of texts.
* `FileTree`: the entries and the working directory, where relative paths begin.
* `FileTree.entry?`: the entry at a location.
* `IoError`: what the operating system answers when something cannot be done.
-/

namespace ContractAudit

/-- what stands at a place of a file tree -/
inductive Entry
  | file (content : ByteArray)
  /-- a file that nobody is allowed to open -/
  | lockedFile
  | directory
  /-- a directory that nobody is allowed to look into -/
  | lockedDirectory
  | link (target : RawText)

abbrev Location := List RawText

instance : Coe (List String) Location := ⟨List.map RawText.ofString⟩

instance : Coe Location (List String) := ⟨List.map RawText.text⟩

/-- files, directories and links -/
structure FileTree where
  entries : List (Location × Entry)
  workingDirectory : Location

/-- why an operation on files fails -/
inductive IoError
  | notFound
  | notAllowed
  | alreadyExists
  | notADirectory
  | isADirectory
  | tooManyLinks
  | nameTooLong
  | noSpace
  | notUtf8
  | zeroCharacter
  | noWholeTree
  deriving DecidableEq

namespace IoError

def message : IoError → String
  | notFound => "No such file or directory (os error 2)"
  | notAllowed => "Permission denied (os error 13)"
  | alreadyExists => "File exists (os error 17)"
  | notADirectory => "Not a directory (os error 20)"
  | isADirectory => "Is a directory (os error 21)"
  | noSpace => "No space left on device (os error 28)"
  | nameTooLong => "File name too long (os error 36)"
  | tooManyLinks => "Too many levels of symbolic links (os error 40)"
  | notUtf8 => "stream did not contain valid UTF-8"
  | zeroCharacter => "file name contained an unexpected NUL byte"
  | noWholeTree => "failed to create whole tree"

end IoError

/-- the entry is a file, whoever is allowed to open it -/
def Entry.isFile : Entry → Bool
  | file _ | lockedFile => true
  | directory | lockedDirectory | link _ => false

/-- the entry is a directory, whoever is allowed to look into it -/
def Entry.isDirectory : Entry → Bool
  | directory | lockedDirectory => true
  | file _ | lockedFile | link _ => false

namespace FileTree

/-- the entry at a location; the root is a directory -/
def entry? (t : FileTree) (l : Location) : Option Entry :=
  if l = [] then some .directory else t.entries.lookup l

/-- put an entry at a location, in the place of the one that is there -/
def insert (t : FileTree) (l : Location) (e : Entry) : FileTree :=
  if t.entries.any (·.1 == l) then
    { t with entries := t.entries.map fun x => if x.1 = l then (l, e) else x }
  else { t with entries := t.entries ++ [(l, e)] }

/-- take away an entry and all that is below it -/
def erase (t : FileTree) (l : Location) : FileTree :=
  { t with entries := t.entries.filter fun x => !l.isPrefixOf x.1 }

end FileTree

end ContractAudit
