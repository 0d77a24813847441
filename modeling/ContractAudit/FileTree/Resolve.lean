import ContractAudit.FileTree.Basic

/-!
# Finding entries by their paths

A path is followed step by step from the root or the working directory.  Links on the way are
followed; whether one at the end is depends on what the path is wanted for.

* `Path.steps`: the steps of a path.
* `FileTree.Purpose`: what a path is followed for.
* `FileTree.locate`: the location that a path leads to.
* `FileTree.realLocation`: the same, one place after the other, each by its full path.
* `FileTree.isFile`, `FileTree.isDirectory`, `FileTree.readBytes`, `FileTree.readText`.

At most forty links are followed on the way of one path, and no path may be too long that is given
to the operating system.
-/

namespace ContractAudit

/-- one step of a path -/
inductive PathStep
  /-- to the entry with this name -/
  | down (name : RawText)
  /-- to the directory above -/
  | up
  /-- nowhere: a dot -/
  | stay
  /-- nowhere: a slash at the end -/
  | slash
  deriving DecidableEq

namespace PathStep

/-- the steps of the pieces between slashes; only at the end does an empty piece count -/
def ofPieces : List (List UInt8) → List PathStep
  | [] => []
  | [p] => if p = [] then [slash] else [ofPiece p]
  | p :: q :: ps => if p = [] then ofPieces (q :: ps) else ofPiece p :: ofPieces (q :: ps)
where
  /-- the step of a piece that is not empty -/
  ofPiece (p : List UInt8) : PathStep :=
    if p = [dotByte] then stay else if p = [dotByte, dotByte] then up else down ⟨p⟩

end PathStep

def Path.steps (p : Path) : List PathStep := PathStep.ofPieces (splitSlash p.raw.bytes)

namespace FileTree

/-- what a path is followed for -/
inductive Purpose
  /-- for the entry that it leads to; a link at its end is followed -/
  | followed
  /-- for the entry at its end; a link is an entry of its own -/
  | asItIs
  /-- for the place of a file; a link is followed, and there may be no entry yet -/
  | fresh
  /-- for the full path of the entry that it leads to; every place on the way is looked up by its
  own full path -/
  | fullPath
  deriving DecidableEq

/-- the most bytes that a name has -/
def maxNameBytes : Nat := 255

/-- the most bytes that a path has, and one more for its end -/
def maxPathBytes : Nat := 4096

/-- the most links that are followed -/
def maxLinks : Nat := 40

/-- the path is too long to be given to the operating system -/
def isTooLong (p : Path) : Bool := maxPathBytes ≤ p.raw.size

/-- how many bytes the full path of a location has -/
def fullPathBytes (l : Location) : Nat := l.foldr (fun name n => name.size + 1 + n) 0

/-- the location that the steps lead to from a directory, following at most `links` links -/
def follow (t : FileTree) (purpose : Purpose) (links : Nat) (at_ : Location)
    (steps : List PathStep) : Except IoError Location :=
  match steps with
  | [] => .ok at_
  | .up :: rest => follow t purpose links at_.dropLast rest
  | .stay :: rest => follow t purpose links at_ rest
  | .slash :: rest => follow t purpose links at_ rest
  | .down name :: rest =>
    let there := at_ ++ [name]
    if maxNameBytes < name.size then .error .nameTooLong
    else if purpose = .fullPath ∧ maxPathBytes ≤ fullPathBytes there then .error .nameTooLong
    else if purpose = .fresh ∧ rest = [.slash] then .error .isADirectory
    else match t.entry? there with
      | none => if purpose = .fresh ∧ rest = [] then .ok there else .error .notFound
      | some .directory => follow t purpose links there rest
      | some .lockedDirectory =>
        -- in there not even the dot can be looked up
        if rest.all (· == .slash) then .ok there else .error .notAllowed
      | some (.file _) | some .lockedFile =>
        if rest = [] then .ok there else .error .notADirectory
      | some (.link target) =>
        if purpose = .asItIs ∧ rest = [] then .ok there
        else match links with
          | 0 => .error .tooManyLinks
          | links + 1 =>
            let target : Path := ⟨target⟩
            follow t purpose links (if target.isAbsolute then [] else at_) (target.steps ++ rest)
termination_by (links, steps.length)

def startOf (t : FileTree) (p : Path) : Location := if p.isAbsolute then [] else t.workingDirectory

def locate (t : FileTree) (purpose : Purpose) (p : Path) : Except IoError Location :=
  if p.raw.isEmpty then .error .notFound
  else if p.raw.bytes.contains 0 then .error .zeroCharacter
  else if isTooLong p then .error .nameTooLong
  else follow t purpose maxLinks (t.startOf p) p.steps

/-- the location that a path of any length leads to, if the full paths on the way are not too
long -/
def realLocation (t : FileTree) (p : Path) : Except IoError Location :=
  if p.raw.isEmpty then .error .notFound
  else if p.raw.bytes.contains 0 then .error .zeroCharacter
  else follow t .fullPath maxLinks (t.startOf p) p.steps

/-- the entry that a path leads to, with a link at its end followed -/
def entryAt? (t : FileTree) (p : Path) : Option Entry :=
  match t.locate .followed p with
  | .ok l => t.entry? l
  | .error _ => none

def pathExists (t : FileTree) (p : Path) : Bool := (t.entryAt? p).isSome

def isDirectory (t : FileTree) (p : Path) : Bool :=
  match t.entryAt? p with
  | some e => e.isDirectory
  | none => false

def isFile (t : FileTree) (p : Path) : Bool :=
  match t.entryAt? p with
  | some e => e.isFile
  | none => false

def readBytes (t : FileTree) (p : Path) : Except IoError ByteArray := do
  let l ← t.locate .followed p
  match t.entry? l with
  | some (.file content) => return content
  | some .lockedFile | some .lockedDirectory => throw .notAllowed
  | some .directory => throw .isADirectory
  | _ => throw .notFound

def readText (t : FileTree) (p : Path) : Except IoError String := do
  let content ← t.readBytes p
  match String.fromUTF8? content with
  | some s => return s
  | none => throw .notUtf8

end FileTree

end ContractAudit
