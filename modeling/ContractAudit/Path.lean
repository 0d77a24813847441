import ContractAudit.Text.Raw

/-!
# Paths

A path is kept as it is written, byte by byte.  What it means is the list of its components: slashes
in a row count once, a dot counts only at the very beginning, and a slash at the end counts not at
all.

* `Path.mk`, `Path.text`: the path of a text, and the text that is shown for a path.
* `Path.Component`, `Path.components`: the components of a path.
* `Ord Path`: paths are ordered by their components.  Two spellings of one path compare equal.
* `Path.join`, `Path.parent?`, `Path.fileName?`: a path below another, the path above, and the
  last name.
* `extension?`: the extension of a name.
-/

namespace ContractAudit

/-- cut a row of bytes at every slash -/
def splitSlash (s : List UInt8) : List (List UInt8) :=
  s.foldr (fun c ps =>
    if c = slashByte then [] :: ps
    else match ps with
      | [] => [[c]]
      | p :: ps => (c :: p) :: ps) [[]]

/-- a path as it is written -/
structure Path where
  ofRaw ::
  raw : RawText
  deriving DecidableEq

namespace Path

/-- the path that is written as a text -/
def mk (s : String) : Path := ofRaw s

/-- the text that is shown for a path -/
def text (p : Path) : String := p.raw.text

/-- one component of a path -/
inductive Component
  | root
  | current
  | parent
  | name (s : RawText)
  deriving DecidableEq

namespace Component

/-- the kinds of components in their order -/
def rank : Component → Nat
  | root => 0
  | current => 1
  | parent => 2
  | name _ => 3

/-- the name that a component has -/
def nameText : Component → RawText
  | name s => s
  | _ => ""

instance : Ord Component :=
  ⟨fun a b => (compare a.rank b.rank).then (compare a.nameText b.nameText)⟩

/-- the component that stands between two slashes, or none if it does not count -/
def ofPiece? (piece : List UInt8) : Option Component :=
  if piece = [] ∨ piece = [dotByte] then none
  else if piece = [dotByte, dotByte] then some parent
  else some (name ⟨piece⟩)

end Component

def isAbsolute (p : Path) : Bool := p.raw.bytes.head? == some slashByte

def components (p : Path) : List Component :=
  let pieces := splitSlash p.raw.bytes
  let start : List Component :=
    if pieces.head? = some [dotByte] then [.current] else if p.isAbsolute then [.root] else []
  start ++ pieces.filterMap Component.ofPiece?

instance : Ord Path := ⟨fun a b => compare a.components b.components⟩

def fileName? (p : Path) : Option RawText :=
  match p.components.getLast? with
  | some (.name s) => some s
  | _ => none

/-- a path below another; an absolute one stands for itself -/
def join (p q : Path) : Path :=
  if q.isAbsolute ∨ p.raw.isEmpty then q
  else if p.raw.bytes.getLast? = some slashByte then ⟨p.raw ++ q.raw⟩
  else ⟨p.raw ++ "/" ++ q.raw⟩

/-- the piece counts as a component -/
def counts (piece : List UInt8) : Bool := (Component.ofPiece? piece).isSome

/-- a path, written backwards piece by piece, without the pieces at its end that do not count; the
first piece of all is kept -/
def dropIdle : List (List UInt8) → List (List UInt8)
  | [] => []
  | [p] => [p]
  | p :: q :: ps => if counts p then p :: q :: ps else dropIdle (q :: ps)

/-- put pieces together with slashes between them -/
def joinPieces (ps : List (List UInt8)) : List UInt8 := (ps.intersperse [slashByte]).flatten

/-- the path without its last component, if it has one and that is not the root -/
def parent? (p : Path) : Option Path :=
  match p.components.getLast? with
  | none => none
  | some .root => none
  | some _ =>
    match dropIdle (splitSlash p.raw.bytes).reverse with
    | [] => none
    | [_] => some ⟨""⟩
    | _ :: above =>
      match dropIdle above with
      | [[]] => some ⟨"/"⟩
      | above => some ⟨⟨joinPieces above.reverse⟩⟩

end Path

/-- what stands behind the last dot of a name, unless that dot begins the name -/
def extension? (name : RawText) : Option RawText :=
  if name = ".." then none
  else
    let bs := name.bytes.reverse
    match bs.dropWhile (· != dotByte) with
    | [] => none
    | [_] => none
    | _ => some ⟨(bs.takeWhile (· != dotByte)).reverse⟩

end ContractAudit
