import ContractAudit.Decimal.Binary

/-!
# The shortest decimal of a floating-point number

Of all decimals that read back as a number the one with the fewest digits is chosen, and among
those the nearest to the number.

* `Scientific`: a natural number of digits times a power of ten.
* `Scientific.toFloat`: the floating-point number nearest to it.
* `candidate x n`: the best decimal of `n` digits that reads back as the positive number `x`.
* `shortest x`: the candidate with the fewest digits.

A decimal is chosen only if it reads back; seventeen digits always suffice, and the exact decimal
expansion stands behind them.
-/

namespace ContractAudit.Decimal

/-- the decimal `digits * 10 ^ exponent` -/
structure Scientific where
  digits : Nat
  exponent : Int
  deriving DecidableEq

namespace Scientific

/-- the floating-point number nearest to a decimal -/
def toFloat (s : Scientific) : Float :=
  if 0 ≤ s.exponent then Float.ofScientific s.digits false s.exponent.toNat
  else Float.ofScientific s.digits true (-s.exponent).toNat

end Scientific

def digitCount (n : Nat) : Nat := (Nat.toDigits 10 n).length

/-- the quotient `n / d` divided by `10 ^ e`, again as a quotient -/
def scaleDown (n d : Nat) (e : Int) : Nat × Nat :=
  if 0 ≤ e then (n, d * Nat.pow 10 e.toNat) else (n * Nat.pow 10 (-e).toNat, d)

/-- the largest `e` for which `10 ^ e` is at most the positive quotient `n / d` -/
def decade (n d : Nat) : Int :=
  let e := (digitCount n : Int) - digitCount d
  let (a, b) := scaleDown n d e
  if b ≤ a then e else e - 1

/-- a decimal of `n` digits; if there is one digit more, it is a one with zeros behind it -/
def Scientific.ofDigits (n digits : Nat) (e : Int) : Scientific :=
  if digits = Nat.pow 10 n then ⟨1, e + n⟩ else ⟨digits, e⟩

/-- the two decimals of `n` digits around the positive number `x`, the nearer one first -/
def neighbours (x : Float) (n : Nat) : List Scientific :=
  let (num, den) := fraction x
  let e := decade num den - n + 1
  let (a, b) := scaleDown num den e
  let below := Scientific.ofDigits n (a / b) e
  let above := Scientific.ofDigits n (a / b + 1) e
  if roundDiv a b = a / b then [below, above] else [above, below]

/-- the nearest decimal of `n` digits that reads back as the positive number `x` -/
def candidate (x : Float) (n : Nat) : Option Scientific :=
  (neighbours x n).find? fun s => s.toFloat == x

/-- the exact decimal expansion of the size of `x` -/
def expansion (x : Float) : Scientific :=
  let (m, e) := magnitude x
  if 0 ≤ e then ⟨m * Nat.pow 2 e.toNat, 0⟩ else ⟨m * Nat.pow 5 (-e).toNat, e⟩

/-- the shortest decimal that reads back as the positive number `x` -/
def shortest (x : Float) : Scientific :=
  ((List.range' 1 17).findSome? (candidate x)).getD (expansion x)

end ContractAudit.Decimal
