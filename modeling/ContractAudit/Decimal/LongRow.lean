import ContractAudit.Decimal.Shortest
import ContractAudit.Text.Digits

/-!
# Long rows of digits

A number that lies halfway between two floating-point numbers has fewer than eight hundred digits
from its first one that is not zero.  So a decimal with more digits is rounded as if all that
stand behind these were a single one, or none at all if they are zeros.

* `Scientific.ofRow`: a decimal that is rounded like the one that a row of digits spells.
-/

namespace ContractAudit.Decimal

/-- how many digits decide on which side of all halfway numbers a decimal lies -/
def decidingDigits : Nat := 800

/-- a decimal that is rounded like the digits `ds` times `10 ^ exponent` -/
def Scientific.ofRow (ds : List Char) (exponent : Int) : Scientific :=
  let ds := ds.dropWhile (· == '0')
  let front := ds.take decidingDigits
  let rest := ds.drop decidingDigits
  if rest.all (· == '0') then ⟨Text.ofDigits front, exponent + rest.length⟩
  else ⟨Text.ofDigits front * 10 + 1, exponent + rest.length - 1⟩

end ContractAudit.Decimal
