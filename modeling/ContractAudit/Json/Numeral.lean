import ContractAudit.Decimal.Scaled
import ContractAudit.Decimal.Text
import ContractAudit.Json.Value
import ContractAudit.Text.Digits

/-!
# Numbers in JSON

A number keeps its spelling until it is known what it stands for.

* `Numeral`, `Numeral.ofLexeme`: the parts of a spelling.
* `Json.ofNat`, `Json.ofInt`, `Json.ofFloat`: numbers as they are written; what is not finite is
  written as null.
* `Json.nat?`, `Json.int?`, `Json.float?`: numbers as they are read.  A whole number has no
  fraction, no exponent and, if it is zero, no sign; the others are scaled by their power of ten,
  and must not be too large.

The scaling rounds more than once, so a floating-point number that is written in full length can be
read as one of its neighbours.
-/

namespace ContractAudit

/-- the parts of the spelling of a number -/
structure Numeral where
  negative : Bool
  /-- the digits in front of the point -/
  front : List Char
  /-- the digits behind the point -/
  fraction : List Char
  exponent : Int
  /-- without point and exponent -/
  whole : Bool

namespace Numeral

open Text (isDigit ofDigits)

/-- the exponent of a text that follows its mark -/
def exponentOf : List Char → Int
  | '-' :: ds => -(ofDigits ds : Int)
  | '+' :: ds => ofDigits ds
  | ds => ofDigits ds

def ofLexeme (lexeme : List Char) : Numeral :=
  let negative := lexeme.head? == some '-'
  let s := if negative then lexeme.drop 1 else lexeme
  let front := s.takeWhile isDigit
  let (fraction, s) :=
    match s.dropWhile isDigit with
    | '.' :: r => (r.takeWhile isDigit, r.dropWhile isDigit)
    | r => ([], r)
  { negative := negative
    front := front
    fraction := fraction
    exponent := exponentOf (s.drop 1)
    whole := fraction.isEmpty && s.isEmpty }

/-- the whole number that is spelled -/
def int? (n : Numeral) : Option Int :=
  let size := ofDigits n.front
  if !n.whole then none
  else if n.negative then if size = 0 then none else some (-(size : Int))
  else some size

/-- the number that is spelled, with its digits counted and scaled; nothing if it is too large -/
def float? (n : Numeral) : Option Float :=
  (Decimal.Scientific.ofWritten n.front n.fraction n.exponent).scaled?.map fun size =>
    if n.negative then -size else size

end Numeral

namespace Json

def ofNat (n : Nat) : Json := .number (Nat.toDigits 10 n)

def ofInt : Int → Json
  | .ofNat n => ofNat n
  | .negSucc n => .number ('-' :: Nat.toDigits 10 (n + 1))

/-- a floating-point number, or null if it is not finite -/
def ofFloat (x : Float) : Json :=
  match Decimal.number? x with
  | some s => .number s.toList
  | none => .null

/-- a whole number from `lo` to `hi` -/
def int? (lo hi : Int) : Json → Option Int
  | .number l =>
    match (Numeral.ofLexeme l).int? with
    | some n => if lo ≤ n ∧ n ≤ hi then some n else none
    | none => none
  | _ => none

/-- a natural number up to `hi` -/
def nat? (hi : Nat) (x : Json) : Option Nat := (x.int? 0 hi).map Int.toNat

def float? : Json → Option Float
  | .number l => (Numeral.ofLexeme l).float?
  | _ => none

end Json

end ContractAudit
