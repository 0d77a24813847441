import ContractAudit.Bounds
import ContractAudit.Decimal.LongRow
import ContractAudit.Text.Digits
import ContractAudit.Time.Calendar
import ContractAudit.Toml.Value

/-!
# Words of TOML

Numbers, truth values, dates and times are single words.

* `Toml.integer?`, `Toml.float?`: numbers; a low line may stand between two digits.
* `Toml.isDateTime`: dates, times, and both together.
* `Toml.ofWord?`: the value of a word.
-/

namespace ContractAudit.Toml

open Text (isDigit ofDigits)

/-! ## Numbers -/

/-- digits of a class, with single low lines between them, without these lines -/
def digitsOf (p : Char → Bool) : List Char → Option (List Char)
  | [] => none
  | [c] => if p c then some [c] else none
  | c :: '_' :: s => if p c then (digitsOf p s).map (c :: ·) else none
  | c :: s => if p c then (digitsOf p s).map (c :: ·) else none

/-- the sign in front of a word, and the rest -/
def splitSign : List Char → Bool × List Char
  | '-' :: s => (true, s)
  | '+' :: s => (false, s)
  | s => (false, s)

/-- the digits of a whole number, which begin with zero only if there is no other -/
def wholeDigits (s : List Char) : Option (List Char) :=
  match digitsOf isDigit s with
  | some ('0' :: _ :: _) => none
  | ds => ds

/-- the value of a digit, up to sixteen -/
def digitValue (c : Char) : Nat :=
  if isDigit c then c.toNat - 48
  else if 'a' ≤ c then c.toNat - 87
  else c.toNat - 55

/-- the number that digits of a base spell, if it has at most 64 bits -/
def countOfBase? (base : Nat) (ds : List Char) : Option Nat :=
  ds.foldlM (fun n c =>
    let next := n * base + digitValue c
    if next ≤ maxCount then some next else none) 0

def isHexDigit (c : Char) : Bool :=
  isDigit c || ('a' ≤ c && c ≤ 'f') || ('A' ≤ c && c ≤ 'F')

/-- the whole number with the digits of a class, which are those of a base -/
def naturalOf (base : Nat) (p : Char → Bool) (s : List Char) : Option Int :=
  ((digitsOf p s).bind (countOfBase? base)).map Int.ofNat

/-- a whole number of any base, which has to fit into 64 bits with a sign -/
def integer? (word : List Char) : Option Int :=
  let value :=
    match word with
    | '0' :: 'x' :: s => naturalOf 16 isHexDigit s
    | '0' :: 'o' :: s => naturalOf 8 (fun c => '0' ≤ c && c ≤ '7') s
    | '0' :: 'b' :: s => naturalOf 2 (fun c => c == '0' || c == '1') s
    | word =>
      let (negative, s) := splitSign word
      ((wholeDigits s).bind (countOfBase? 10)).map fun n => if negative then -(n : Int) else n
  value.filter fitsInt64

/-- the exponent that digits spell; behind 65,536 and more no digit is read, for such an exponent
is too large anyhow -/
def exponentOf (ds : List Char) : Nat :=
  ds.foldl (fun n c => if n < 65536 then n * 10 + digitValue c else n) 0

/-- an exponent after its mark; there has to be one if there is a mark -/
def exponent? : List Char → Option Int
  | [] => some 0
  | _ :: s =>
    let (negative, s) := splitSign s
    (digitsOf isDigit s).map fun ds => if negative then -(exponentOf ds : Int) else exponentOf ds

def isExponentMark (c : Char) : Bool := c == 'e' || c == 'E'

/-- a number with a fraction or an exponent; a positive one must not be too large -/
def float? (word : List Char) : Option Float := do
  let (negative, s) := splitSign word
  if s = ['i', 'n', 'f'] then return if negative then -1.0 / 0.0 else 1.0 / 0.0
  if s = ['n', 'a', 'n'] then return 0.0 / 0.0
  let mantissa := s.takeWhile (!isExponentMark ·)
  let mark := s.dropWhile (!isExponentMark ·)
  let front := mantissa.takeWhile (· != '.')
  let point := mantissa.dropWhile (· != '.')
  if point.isEmpty ∧ mark.isEmpty then none
  let whole ← wholeDigits front
  let fraction ← if point.isEmpty then some [] else digitsOf isDigit (point.drop 1)
  let exponent ← exponent? mark
  let size := (Decimal.Scientific.ofRow (whole ++ fraction) (exponent - fraction.length)).toFloat
  if negative then return -size
  else if size.isFinite then return size
  else none

/-! ## Dates and times -/

/-- two digits that spell at most `most` -/
def isPairUpTo (most : Nat) (a b : Char) : Bool :=
  isDigit a && isDigit b && ofDigits [a, b] ≤ most

def isDate : List Char → Bool
  | [a, b, c, d, '-', e, f, '-', g, h] =>
    [a, b, c, d, e, f, g, h].all isDigit &&
      decide (Date.IsValid ⟨ofDigits [a, b, c, d], ofDigits [e, f], ofDigits [g, h]⟩)
  | _ => false

/-- the rest of a text after a time, which may have a fraction -/
def dropTime : List Char → Option (List Char)
  | a :: b :: ':' :: c :: d :: ':' :: e :: f :: s =>
    if isPairUpTo 23 a b && isPairUpTo 59 c d && isPairUpTo 60 e f then
      match s with
      | '.' :: r => if (r.takeWhile isDigit).isEmpty then none else some (r.dropWhile isDigit)
      | s => some s
    else none
  | _ => none

/-- a zone, or nothing -/
def isOffset : List Char → Bool
  | [] => true
  | ['Z'] => true
  | ['z'] => true
  | [sign, a, b, ':', c, d] =>
    (sign == '+' || sign == '-') && isPairUpTo 23 a b && isPairUpTo 59 c d
  | _ => false

/-- a date, a time, or a date and a time that may have a zone -/
def isDateTime (word : List Char) : Bool :=
  isDate word || dropTime word == some [] ||
    (isDate (word.take 10) &&
      match word.drop 10 with
      | c :: s =>
        (c == 'T' || c == 't' || c == ' ') &&
          match dropTime s with
          | some r => isOffset r
          | none => false
      | [] => false)

def ofWord? (word : List Char) : Option Toml :=
  if word = ['t', 'r', 'u', 'e'] then some (.boolean true)
  else if word = ['f', 'a', 'l', 's', 'e'] then some (.boolean false)
  else if isDateTime word then some .dateTime
  else match integer? word with
    | some n => some (.integer n)
    | none => (float? word).map .float

end ContractAudit.Toml
