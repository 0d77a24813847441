import ContractAudit.FileTree.Resolve

/-!
# Walking through a directory

A walk goes through everything at and below its root.  Links are not followed, but a root that is
itself a link to a directory is walked like that directory.

* `WalkError`: where a walk comes to its end too early, and why.
* `FileTree.below`: the entries below a location, in listing order.
* `FileTree.walk`: the entries of a walk with their paths, which are spelled from the root on.

Every directory on a walk is opened by the path that the walk gives it, which must not be too long,
and it must not be closed.  Files and links are only named.
-/

namespace ContractAudit

/-- a walk comes to its end at a path -/
structure WalkError where
  path : Path
  cause : IoError
  deriving DecidableEq

namespace FileTree

/-- what is left of a location below another -/
def relativeTo (base : Location) (l : Location) : Option Location :=
  if base.isPrefixOf l ∧ base.length < l.length then some (l.drop base.length) else none

/-- the entries below a location, with the names that lead to them from there -/
def below (t : FileTree) (base : Location) : List (Location × Entry) :=
  t.entries.filterMap fun (l, e) => (relativeTo base l).map (·, e)

/-- the path of the entry that the names lead to from a directory -/
def pathBelow (root : Path) (names : Location) : Path :=
  names.foldl (fun p name => p.join ⟨name⟩) root

/-- a directory that cannot be opened: its path is too long, or it is closed -/
def cannotOpen (x : Path × Entry) : Bool :=
  match x.2 with
  | .directory => isTooLong x.1
  | .lockedDirectory => true
  | _ => false

/-- why the directory at a path cannot be opened -/
def whyClosed (p : Path) : IoError := if isTooLong p then .nameTooLong else .notAllowed

/-- the entries below a directory with their paths -/
def walkBelow (t : FileTree) (root : Path) (base : Location) :
    Except WalkError (List (Path × Entry)) :=
  let entries := (t.below base).map fun (names, e) => (pathBelow root names, e)
  match entries.find? cannotOpen with
  | some x => .error ⟨x.1, whyClosed x.1⟩
  | none => .ok entries

/-- everything at and below a directory, unless that is closed -/
def walkThrough (t : FileTree) (root : Path) (e : Entry) (base : Location) :
    Except WalkError (List (Path × Entry)) :=
  match t.entry? base with
  | some .lockedDirectory => .error ⟨root, .notAllowed⟩
  | _ => (t.walkBelow root base).map ((root, e) :: ·)

def walk (t : FileTree) (root : Path) : Except WalkError (List (Path × Entry)) := do
  let l ← (t.locate .asItIs root).mapError (WalkError.mk root)
  match t.entry? l with
  | none => throw ⟨root, .notFound⟩
  | some (.link target) =>
    let behind ← (t.locate .followed root).mapError (WalkError.mk root)
    if (t.entry? behind).any (·.isDirectory) then t.walkThrough root (.link target) behind
    else return [(root, .link target)]
  | some e => if e.isDirectory then t.walkThrough root e l else return [(root, e)]

end FileTree

end ContractAudit
