/-!
# Bounds of numbers

Counts that are kept in files have 64 bits, and so have whole numbers with a sign.

* `maxCount`: the largest count.
* `fitsInt64`: the number has at most 64 bits, one of them for its sign.
-/

namespace ContractAudit

/-- the largest number of 64 bits -/
def maxCount : Nat := 18446744073709551615

/-- the smallest number of 64 bits with a sign -/
def minInt64 : Int := -9223372036854775808

/-- the largest number of 64 bits with a sign -/
def maxInt64 : Int := 9223372036854775807

/-- the number has at most 64 bits, one of them for its sign -/
def fitsInt64 (n : Int) : Bool := minInt64 ≤ n && n ≤ maxInt64

end ContractAudit
