/-!
# Lists in the order of their keys

A list of keys and values whose keys increase serves as a finite map.

* `Ordered.insert k v l`: the map with `v` at the key `k`.  A key that compares equal is already
  there keeps its spelling.
* `Ordered.ofList`: the map of a list, where the last value of a key counts.
* `Ordered.tally`: how often each key occurs in a list.
-/

namespace ContractAudit.Ordered

variable {κ ν : Type} [Ord κ]

def insert (k : κ) (v : ν) : List (κ × ν) → List (κ × ν)
  | [] => [(k, v)]
  | (k', v') :: l =>
    match compare k k' with
    | .lt => (k, v) :: (k', v') :: l
    | .eq => (k', v) :: l
    | .gt => (k', v') :: insert k v l

def ofList (l : List (κ × ν)) : List (κ × ν) := l.foldl (fun m x => insert x.1 x.2 m) []

/-- count a key once more -/
def increment (k : κ) : List (κ × Nat) → List (κ × Nat)
  | [] => [(k, 1)]
  | (k', n) :: l =>
    match compare k k' with
    | .lt => (k, 1) :: (k', n) :: l
    | .eq => (k', n + 1) :: l
    | .gt => (k', n) :: increment k l

def tally (l : List κ) : List (κ × Nat) := l.foldl (fun m k => increment k m) []

end ContractAudit.Ordered
