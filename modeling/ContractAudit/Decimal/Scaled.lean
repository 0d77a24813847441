import ContractAudit.Bounds
import ContractAudit.Decimal.Shortest
import ContractAudit.Text.Digits

/-!
# A decimal read by scaling

A number in a data file is read as a count of 64 bits that is multiplied or divided by a power
of ten.  Every step rounds to the nearest.  If the count and the power are exact there is only one
rounding, and the result is the nearest floating-point number; otherwise it can be a few units off.

* `countWithin n ds`: the digits `ds` put behind the number `n`, as far as 64 bits hold them.
* `Scientific.ofWritten`: the count and the power of ten of digits around a point.
* `Scientific.scaled?`: the floating-point number that they give.

Digits that the count cannot hold are lost: in front of the point each of them is worth a power of
ten, behind the point they are worth nothing.
-/

namespace ContractAudit.Decimal

open Text (ofDigits)

/-- the number that `n` with digits behind it spells, up to the first digit with which it would
exceed 64 bits, and the digits from there on -/
def countWithin (n : Nat) : List Char → Nat × List Char
  | [] => (n, [])
  | c :: cs =>
    let next := n * 10 + ofDigits [c]
    if next ≤ maxCount then countWithin next cs else (n, c :: cs)

/-- the decimal that digits in front of a point, digits behind it and an exponent spell; digits
behind the point go on with the count even if some in front of it are lost -/
def Scientific.ofWritten (front fraction : List Char) (exponent : Int) : Scientific :=
  let (n, frontRest) := countWithin 0 front
  let (n, fractionRest) := countWithin n fraction
  ⟨n, exponent + frontRest.length - (fraction.length - fractionRest.length : Nat)⟩

/-- the exponent of the largest power of ten that is finite -/
def topPower : Nat := 308

/-- the floating-point number nearest to `10 ^ n` -/
def tenTo (n : Nat) : Float := Float.ofScientific 1 false n

/-- `x * 10 ^ n`; nothing if the power or the product is too large, unless `x` is zero -/
def timesTenTo? (x : Float) (n : Nat) : Option Float :=
  if n ≤ topPower then
    let y := x * tenTo n
    if y.isFinite then some y else none
  else if x == 0 then some x
  else none

/-- `x / 10 ^ n`, where no quotient is by more than the largest finite power -/
def overTenTo (x : Float) (n : Nat) : Float :=
  if n ≤ topPower then x / tenTo n
  else if x == 0 then x
  else overTenTo (x / tenTo topPower) (n - topPower)
termination_by n
decreasing_by simp only [topPower] at *; omega

/-- the count as a floating-point number, scaled by its power of ten; nothing if that is too
large -/
def Scientific.scaled? (s : Scientific) : Option Float :=
  let x := Scientific.toFloat ⟨s.digits, 0⟩
  if 0 ≤ s.exponent then timesTenTo? x s.exponent.toNat
  else some (overTenTo x (-s.exponent).toNat)

end ContractAudit.Decimal
