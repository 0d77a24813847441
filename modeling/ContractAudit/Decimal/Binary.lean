/-!
# The value of a floating-point number

A finite number of 64 bits is a sign and a mantissa times a power of two.

* `isNegative`: the sign, which a zero has as well.
* `magnitude`: mantissa and exponent of the size.
* `fraction`: the size as a quotient of two naturals.
* `roundDiv`: a quotient rounded to the nearest natural, a half to the even one.
-/

namespace ContractAudit.Decimal

/-- the value of the sign bit, two to the power of 63 -/
def signUnit : Nat := 9223372036854775808

/-- the value of the bit above the mantissa, two to the power of 52 -/
def mantissaUnit : Nat := 4503599627370496

/-- the sign bit is set -/
def isNegative (x : Float) : Bool := signUnit ≤ x.toBits.toNat

/-- the size of a finite number is `m * 2 ^ e` for this pair `(m, e)` -/
def magnitude (x : Float) : Nat × Int :=
  let bits : Nat := x.toBits.toNat % signUnit
  let e : Nat := bits / mantissaUnit
  let m : Nat := bits % mantissaUnit
  if e = 0 then (m, -1074) else (m + mantissaUnit, (e : Int) - 1075)

/-- the size of a finite number is `n / d` for this pair `(n, d)` -/
def fraction (x : Float) : Nat × Nat :=
  let (m, e) := magnitude x
  if 0 ≤ e then (m * Nat.pow 2 e.toNat, 1) else (m, Nat.pow 2 (-e).toNat)

/-- the natural number nearest to `n / d`; a half goes to the even one -/
def roundDiv (n d : Nat) : Nat :=
  let q := n / d
  let r := n % d
  if 2 * r < d then q
  else if d < 2 * r then q + 1
  else if q % 2 = 0 then q
  else q + 1

end ContractAudit.Decimal
