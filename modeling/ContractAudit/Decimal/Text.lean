import ContractAudit.Decimal.Shortest

/-!
# Decimals as text

* `fixedOne x`: one digit behind the point, as reports for readers show a number.
* `number? x`: the shortest decimal of a finite number, as data files show it: positional from
  1e-5 up to 1e16, always with a digit behind the point, and with an exponent otherwise.
-/

namespace ContractAudit.Decimal

/-- the sign in front of a negative number -/
def sign (x : Float) : String := if isNegative x then "-" else ""

/-- the number rounded to one place behind the point, a half to the even neighbour -/
def fixedOne (x : Float) : String :=
  if x.isNaN then "NaN"
  else if x.isInf then sign x ++ "inf"
  else
    let (n, d) := fraction x
    let tenths := roundDiv (n * 10) d
    sign x ++ toString (tenths / 10) ++ "." ++ toString (tenths % 10)

def zeros (n : Nat) : String := String.ofList (List.replicate n '0')

/-- digits with the point set by the decimal exponent of the number -/
def positional (digits : String) (exponent : Int) : String :=
  let n := digits.length
  let point := n + exponent
  if 0 ≤ exponent then digits ++ zeros exponent.toNat ++ ".0"
  else if 0 < point then
    String.ofList (digits.toList.take point.toNat) ++ "." ++
      String.ofList (digits.toList.drop point.toNat)
  else "0." ++ zeros (-point).toNat ++ digits

/-- digits with one of them in front of the point, and an exponent -/
def withExponent (digits : String) (exponent : Int) : String :=
  let e := digits.length + exponent - 1
  let mantissa :=
    match digits.toList with
    | d :: [] => String.ofList [d]
    | d :: ds => String.ofList (d :: '.' :: ds)
    | [] => ""
  mantissa ++ "e" ++ (if e < 0 then "-" else "+") ++ toString e.natAbs

/-- a decimal as text: positional from 1e-5 up to 1e16 -/
def Scientific.text (s : Scientific) : String :=
  let digits := toString s.digits
  let point := digits.length + s.exponent
  if -5 < point ∧ point ≤ 16 then positional digits s.exponent
  else withExponent digits s.exponent

/-- a finite number as text; nothing for the others -/
def number? (x : Float) : Option String :=
  if !x.isFinite then none
  else if x == 0 then some (sign x ++ "0.0")
  else some (sign x ++ (shortest x.abs).text)

end ContractAudit.Decimal
