import ContractAudit.Toml.Value

/-!
# Records in TOML

* `Toml.record?`: the fields of a record.  It is a table with the fields as keys, or an array with
  the fields in their order; what else a table or an array holds does not count, and a field may
  be missing.
* `Toml.text?`: a string.
* `Toml.choice?`: the name of one of several choices, alone or as the one key of a table whose
  value is empty.
* `Toml.optional`: a field that may be missing.
-/

namespace ContractAudit.Toml

def record? (names : List String) : Toml → Option (String → Option Toml)
  | .table _ es => some fun k => es.lookup k
  | .array xs => some fun k => xs[names.idxOf k]?
  | .tables ts => some fun k => ts.reverse[names.idxOf k]?
  | .dateTime => some fun _ => none
  | _ => none

def text? : Toml → Option String
  | .string s => some s
  | _ => none

/-- a table or an array that holds nothing -/
def isEmpty : Toml → Bool
  | .table _ es => es.isEmpty
  | .array xs => xs.isEmpty
  | .tables ts => ts.isEmpty
  | _ => false

def choice? : Toml → Option String
  | .string s => some s
  | .table _ [(k, v)] => if v.isEmpty then some k else none
  | _ => none

/-- the value of a field, or another one if the field is missing -/
def optional {α : Type} (read : Toml → Option α) (missing : α) : Option Toml → Option α
  | none => some missing
  | some x => read x

end ContractAudit.Toml
