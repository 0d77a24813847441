/-!
# Classes of characters given by ranges

A class of characters is listed as ranges of code points, first and last included, apart from
each other and in increasing order.  `inRanges` looks a code point up by halving.
-/

namespace ContractAudit.Text

/-- look for `n` among the ranges numbered from `lo` up to, but not including, `hi` -/
def inRangesBetween (table : Array (Nat × Nat)) (n lo hi : Nat) : Bool :=
  if lo < hi then
    let mid := (lo + hi) / 2
    match table[mid]? with
    | none => false
    | some (first, last) =>
      if n < first then inRangesBetween table n lo mid
      else if last < n then inRangesBetween table n (mid + 1) hi
      else true
  else false
termination_by hi - lo

def inRanges (table : Array (Nat × Nat)) (n : Nat) : Bool :=
  inRangesBetween table n 0 table.size

end ContractAudit.Text
