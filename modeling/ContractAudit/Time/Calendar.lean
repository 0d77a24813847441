/-!
# The calendar

Dates of the Gregorian calendar, reckoned back and forth without end, and days counted from
1970-01-01.

* `daysInMonth`, `isLeapYear`: the lengths of months and years.
* `Date`, `Date.IsValid`: a year, a month and a day that the month has.
* `Date.toDays`, `Date.ofDays`: the count of days, and back.
* `Date.nextYear`: the same day a year later; February 29 becomes February 28.
-/

namespace ContractAudit

/-- the year has a February 29 -/
def isLeapYear (y : Int) : Bool := y % 4 == 0 && (y % 100 != 0 || y % 400 == 0)

/-- the lengths of the months of a year -/
def monthLengths (y : Int) : List Nat :=
  [31, if isLeapYear y then 29 else 28, 31, 30, 31, 30, 31, 31, 30, 31, 30, 31]

/-- the length of a month; nothing has the months 0 and 13 -/
def daysInMonth (y : Int) (m : Nat) : Nat := if m = 0 then 0 else (monthLengths y).getD (m - 1) 0

/-- the days from the first of a year to the first of the month `m` -/
def daysBeforeMonth (y : Int) (m : Nat) : Nat :=
  ((monthLengths y).take (m - 1)).foldr (fun n sum => n + sum) 0

/-- the days from the first of the year 0 to the first of the year `y` -/
def daysBeforeYear (y : Int) : Int := 365 * y + (y + 3) / 4 - (y + 99) / 100 + (y + 399) / 400

/-- the days from the first of the year 0 to 1970-01-01 -/
def epochDays : Int := 719528

/-- a day of the calendar -/
structure Date where
  year : Int
  month : Nat
  day : Nat
  deriving DecidableEq

namespace Date

/-- the month has such a day -/
def IsValid (d : Date) : Prop := 1 ≤ d.day ∧ d.day ≤ daysInMonth d.year d.month

instance (d : Date) : Decidable d.IsValid := by unfold IsValid; infer_instance

/-- the days from 1970-01-01 to a date -/
def toDays (d : Date) : Int :=
  daysBeforeYear d.year + daysBeforeMonth d.year d.month + d.day - 1 - epochDays

/-- the year of a day that is counted from the first of the year 0 -/
def yearOfDay (n : Int) : Int :=
  let guess := n * 400 / 146097
  if n < daysBeforeYear guess then guess - 1
  else if daysBeforeYear (guess + 1) ≤ n then guess + 1
  else guess

/-- the month and the day in it of a day of the year, both counted from one; `lengths` are the
lengths of the month numbered `m` and of those after it -/
def monthAndDay (m : Nat) (n : Nat) : List Nat → Nat × Nat
  | [] => (m, n + 1)
  | l :: ls => if n < l then (m, n + 1) else monthAndDay (m + 1) (n - l) ls

/-- the date of a day that is counted from 1970-01-01 -/
def ofDays (n : Int) : Date :=
  let year := yearOfDay (n + epochDays)
  let (month, day) :=
    monthAndDay 1 (n + epochDays - daysBeforeYear year).toNat (monthLengths year)
  ⟨year, month, day⟩

/-- the same day a year later, or the last day of the month if it has no such day -/
def nextYear (d : Date) : Date :=
  ⟨d.year + 1, d.month, min d.day (daysInMonth (d.year + 1) d.month)⟩

end Date

end ContractAudit
