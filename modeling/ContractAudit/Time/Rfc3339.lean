import ContractAudit.Text.Blank
import ContractAudit.Text.Digits
import ContractAudit.Time.Instant

/-!
# Instants as text

* `Instant.rfc3339 zone`: date, time and zone, as in `2024-02-29T12:00:00Z`.  The fraction has 0,
  3, 6 or 9 digits, a leap second is the second 60, and a year of more than four digits or before
  the year 0 has a sign.
* `Instant.stamp`: date and time as they stand in the id of an audit.
* `Instant.ofText?`: the instant that a text names.  Numbers may be shorter, there may be white
  space between the parts, and the zone may be any offset of less than a day.
-/

namespace ContractAudit.Instant

open Text

/-! ## Writing -/

/-- a number with at least `width` digits -/
def padded (width n : Nat) : String :=
  let s := toString n
  String.ofList (List.replicate (width - s.length) '0') ++ s

/-- a year: four digits up to 9999, otherwise a sign and at least four digits -/
def yearText (y : Int) : String :=
  if 0 ≤ y ∧ y ≤ 9999 then padded 4 y.toNat
  else (if y < 0 then "-" else "+") ++ padded 4 y.natAbs

/-- the hour, the minute and the second, which is 60 in a leap second -/
def clock (t : Instant) : Nat × Nat × Nat :=
  let s := t.secondOfDay
  (s / 3600, s / 60 % 60, s % 60 + if t.isLeap then 1 else 0)

/-- the fraction of the second with its point, in as few groups of three digits as it needs -/
def fractionText (t : Instant) : String :=
  let n := t.nanos % nanosPerSecond
  if n = 0 then ""
  else if n % 1000000 = 0 then "." ++ padded 3 (n / 1000000)
  else if n % 1000 = 0 then "." ++ padded 6 (n / 1000)
  else "." ++ padded 9 n

def rfc3339 (t : Instant) (zone : String) : String :=
  let d := t.date
  let (h, m, s) := t.clock
  yearText d.year ++ "-" ++ padded 2 d.month ++ "-" ++ padded 2 d.day ++ "T" ++
    padded 2 h ++ ":" ++ padded 2 m ++ ":" ++ padded 2 s ++ t.fractionText ++ zone

/-- date and time without marks between the parts of each -/
def stamp (t : Instant) : String :=
  let d := t.date
  let (h, m, s) := t.clock
  yearText d.year ++ padded 2 d.month ++ padded 2 d.day ++ "_" ++
    padded 2 h ++ padded 2 m ++ padded 2 s

/-! ## Reading -/

/-- the digits in front of a text, at most `most` of them and at least one, and the rest -/
def readDigits (most : Nat) (s : List Char) : Option (List Char × List Char) :=
  let ds := (s.take most).takeWhile isDigit
  if ds.isEmpty then none else some (ds, s.drop ds.length)

/-- a number of one or two digits, after white space -/
def readTwo (s : List Char) : Option (Nat × List Char) :=
  (readDigits 2 (trimStart s)).map fun (ds, r) => (ofDigits ds, r)

/-- a year, after white space: up to four digits, or a sign and any number of them -/
def readYear (s : List Char) : Option (Int × List Char) :=
  match trimStart s with
  | '-' :: r => (readDigits r.length r).map fun (ds, r) => (-(ofDigits ds : Int), r)
  | '+' :: r => (readDigits r.length r).map fun (ds, r) => ((ofDigits ds : Int), r)
  | r => (readDigits 4 r).map fun (ds, r) => ((ofDigits ds : Int), r)

/-- the rest of a text after a character, which may have white space in front of it -/
def skipMark (c : Char) (s : List Char) : Option (List Char) :=
  match trimStart s with
  | d :: r => if d = c then some r else none
  | [] => none

/-- the nanoseconds of a fraction, of which nine digits count; there may be none -/
def readFraction : List Char → Option (Nat × List Char)
  | '.' :: s => do
    let (ds, r) ← readDigits 9 s
    return (ofDigits ds * Nat.pow 10 (9 - ds.length), r.dropWhile isDigit)
  | s => some (0, s)

/-- two digits -/
def readPair : List Char → Option (Nat × List Char)
  | a :: b :: s => if isDigit a && isDigit b then some (ofDigits [a, b], s) else none
  | _ => none

/-- a distance from the zone Z in seconds: hours and minutes -/
def readOffset (s : List Char) : Option (Nat × List Char) := do
  let (h, s) ← readPair s
  let (m, s) ← readPair (s.dropWhile fun c => c == ':' || isBlank c)
  if m < 60 ∧ h < 24 then return (h * 3600 + m * 60, s) else none

/-- a zone, as its distance from the zone Z in seconds -/
def readZone (s : List Char) : Option (Int × List Char) :=
  match s with
  | 'Z' :: r => some (0, r)
  | 'z' :: r => some (0, r)
  | '+' :: r => (readOffset r).map fun (n, r) => ((n : Int), r)
  | '-' :: r => (readOffset r).map fun (n, r) => (-(n : Int), r)
  | '\u2212' :: r => (readOffset r).map fun (n, r) => (-(n : Int), r)
  | u :: t :: c :: r =>
    if (u == 'U' || u == 'u') && (t == 'T' || t == 't') && (c == 'C' || c == 'c') then some (0, r)
    else none
  | _ => none

/-- the sign between date and time -/
def isSeparator (c : Char) : Bool := c == 'T' || c == 't' || c == ' '

/-- the instant of a date and a time at a distance from the zone Z -/
def ofLocal? (d : Date) (h m s nanos : Nat) (offset : Int) : Option Instant :=
  if d.IsValid ∧ firstYear ≤ d.year ∧ d.year ≤ lastYear ∧ h < 24 ∧ m < 60 ∧ s ≤ 60 then
    let leap := if s = 60 then nanosPerSecond else 0
    let near := ofDate d (h * 3600 + m * 60 + min s 59) (nanos + leap)
    let t : Instant := ⟨near.seconds - offset, near.nanos⟩
    if firstYear ≤ t.date.year ∧ t.date.year ≤ lastYear then some t else none
  else none

def ofText? (text : String) : Option Instant := do
  let (year, s) ← readYear text.toList
  let s ← skipMark '-' s
  let (month, s) ← readTwo s
  let s ← skipMark '-' s
  let (day, s) ← readTwo s
  match s with
  | [] => none
  | c :: s =>
    if isSeparator c then
      let (hour, s) ← readTwo s
      let s ← skipMark ':' s
      let (minute, s) ← readTwo s
      let s ← skipMark ':' s
      let (second, s) ← readTwo s
      let (nanos, s) ← readFraction s
      let (offset, s) ← readZone (trimStart s)
      if (trimStart s).isEmpty then ofLocal? ⟨year, month, day⟩ hour minute second nanos offset
      else none
    else none

end ContractAudit.Instant
