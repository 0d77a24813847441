/-!
# TOML values

* `Toml`: a value.  A table remembers how it came about, since that decides what may be added to
  it.
* `Toml.update`: a change of a table that a path leads to.  Tables on the way that are missing are
  made.
* `Toml.addPair`, `Toml.addTable`, `Toml.addElement`: what a line of a document adds.

No key is given twice, and nothing is added to a table that is already complete.
-/

namespace ContractAudit

/-- how a table came about -/
inductive TableKind
  /-- between braces, complete at once -/
  | closed
  /-- by a heading of its own -/
  | headed
  /-- on the way to the table of another heading -/
  | implied
  /-- on the way of a key with dots -/
  | dotted
  deriving DecidableEq

/-- a TOML value -/
inductive Toml
  | string (s : String)
  | integer (n : Int)
  | float (x : Float)
  | boolean (b : Bool)
  | dateTime
  | array (xs : List Toml)
  /-- the tables of headings in double brackets, the last one first -/
  | tables (ts : List Toml)
  | table (kind : TableKind) (entries : List (String × Toml))

namespace Toml

/-- the keys of a table with their values -/
abbrev Entries := List (String × Toml)

/-- the entries with another value at a key that they have -/
def replace (es : Entries) (k : String) (v : Toml) : Entries :=
  es.map fun e => if e.1 = k then (k, v) else e

/-- change the table that a path leads to; keys with dots do not reach into headed tables, unless
these are of double brackets -/
def update (viaDots : Bool) (f : TableKind → Entries → Option Entries) :
    List String → TableKind → Entries → Option Entries
  | [], kind, es => f kind es
  | k :: ks, _, es =>
    match es.lookup k with
    | none => do
      let kind := if viaDots then .dotted else .implied
      let sub ← update viaDots f ks kind []
      return es ++ [(k, .table kind sub)]
    | some (.table kind sub) =>
      if kind = .closed ∨ (viaDots ∧ kind = .headed) then none
      else do
        let sub ← update viaDots f ks kind sub
        return replace es k (.table kind sub)
    | some (.tables (.table kind sub :: ts)) => do
      let sub ← update viaDots f ks kind sub
      return replace es k (.tables (.table kind sub :: ts))
    | some _ => none

/-- give a key of the table a value; `path` are the parts of the key before the last dot -/
def addPair (path : List String) (k : String) (v : Toml) (kind : TableKind) (es : Entries) :
    Option Entries :=
  update true (fun kind es =>
    if (kind == .dotted) == path.isEmpty then none
    else if (es.lookup k).isSome then none
    else some (es ++ [(k, v)])) path kind es

def addTable (path : List String) (k : String) (es : Entries) : Option Entries :=
  update false (fun _ es =>
    match es.lookup k with
    | none => some (es ++ [(k, .table .headed [])])
    | some (.table .implied sub) => some (replace es k (.table .headed sub))
    | some _ => none) path .headed es

/-- begin one more table with the heading `path`, `k` in double brackets -/
def addElement (path : List String) (k : String) (es : Entries) : Option Entries :=
  update false (fun _ es =>
    match es.lookup k with
    | none => some (es ++ [(k, .tables [.table .headed []])])
    | some (.tables ts) => some (replace es k (.tables (.table .headed [] :: ts)))
    | some _ => none) path .headed es

end Toml

end ContractAudit
