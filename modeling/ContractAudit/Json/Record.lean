import ContractAudit.Json.Numeral
import ContractAudit.Ordered

/-!
# Records in JSON

How values of other types are read from JSON.

* `Json.fields? names`: the fields of a record.  It is an object, where fields of other names are
  passed over and no known name comes twice, or an array that has all fields in order.
* `Json.required`, `Json.optional`: one field; an optional one may be missing or null.
* `Json.text?`, `Json.flag?`, `Json.list?`, `Json.map?`: texts, truth values, lists, and maps from
  texts, in which the last value of a key counts.
* `Json.variant?`: the name of a variant, alone or with null.
-/

namespace ContractAudit.Json

def text? : Json → Option String
  | .string s => s
  | _ => none

def flag? : Json → Option Bool
  | .bool b => some b
  | _ => none

def list? {α : Type} (read : Json → Option α) : Json → Option (List α)
  | .array xs => xs.mapM read
  | _ => none

/-- the members of an object if all its keys are texts -/
def members? : Json → Option (List (String × Json))
  | .object ms => ms.mapM fun (k, v) => k.map (·, v)
  | _ => none

/-- a map from texts, in the order of its keys -/
def map? {α : Type} (read : Json → Option α) (x : Json) : Option (List (String × α)) := do
  let ms ← x.members?
  let ms ← ms.mapM fun (k, v) => (read v).map (k, ·)
  return Ordered.ofList ms

/-- the name of a variant, alone or as the only key of an object with null -/
def variant? : Json → Option String
  | .string s => s
  | .object [(k, .null)] => k
  | _ => none

def fields? (names : List String) (x : Json) : Option (String → Option Json) :=
  match x with
  | .array xs =>
    if xs.length = names.length then some fun k => (names.zip xs).lookup k else none
  | _ =>
    match x.members? with
    | none => none
    | some ms =>
      if names.all fun k => (ms.filter fun m => m.1 == k).length ≤ 1 then some fun k => ms.lookup k
      else none

/-- a field that has to be there -/
def required {α : Type} (get : String → Option Json) (name : String) (read : Json → Option α) :
    Option α :=
  (get name).bind read

/-- a field that may be missing or null -/
def optional {α : Type} (get : String → Option Json) (name : String) (read : Json → Option α) :
    Option (Option α) :=
  match get name with
  | none => some none
  | some .null => some none
  | some x => (read x).map some

/-- a value that may be missing, which is written as null -/
def orNull {α : Type} (write : α → Json) : Option α → Json
  | none => .null
  | some x => write x

end ContractAudit.Json
