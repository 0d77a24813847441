import ContractAudit.Bounds
import ContractAudit.Time.Calendar

/-!
# Instants

A point in time is the number of seconds since 1970-01-01T00:00:00Z and a number of nanoseconds.
From 1,000,000,000 nanoseconds on it lies in a leap second, which can only follow a second 59.

* `Instant`, `Instant.IsValid`: the instants, and those that dates from the year -262143 to the
  year 262142 have.
* `Instant.millisUntil`: the whole milliseconds between two instants.
* `Instant.minutesUntil`: the same in minutes, never negative.
* `Instant.nextYear?`: the same day and time a year later.
-/

namespace ContractAudit

/-- a point in time -/
structure Instant where
  seconds : Int
  nanos : Nat
  deriving DecidableEq

namespace Instant

/-- the first year that has instants -/
def firstYear : Int := -262143

/-- the last year that has instants -/
def lastYear : Int := 262142

def nanosPerSecond : Nat := 1000000000

/-- the day of an instant, counted from 1970-01-01 -/
def dayNumber (t : Instant) : Int := t.seconds / 86400

def date (t : Instant) : Date := Date.ofDays t.dayNumber

def secondOfDay (t : Instant) : Nat := (t.seconds % 86400).toNat

/-- the instant lies in a leap second -/
def isLeap (t : Instant) : Bool := nanosPerSecond ≤ t.nanos

/-- the instant can be written as a date and a time -/
def IsValid (t : Instant) : Prop :=
  firstYear ≤ t.date.year ∧ t.date.year ≤ lastYear ∧ t.nanos < 2 * nanosPerSecond ∧
    (t.isLeap → t.seconds % 60 = 59)

instance (t : Instant) : Decidable t.IsValid := by unfold IsValid; infer_instance

/-- the instant of a date, a second of the day and nanoseconds -/
def ofDate (d : Date) (second nanos : Nat) : Instant := ⟨d.toDays * 86400 + second, nanos⟩

/-- the nanoseconds from one instant to another.  Between two times of a day the leap second of
the earlier time is one second more. -/
def nanosUntil (a b : Instant) : Int :=
  let leap : Int :=
    if a.secondOfDay < b.secondOfDay ∧ a.isLeap then 1
    else if b.secondOfDay < a.secondOfDay ∧ b.isLeap then -1
    else 0
  (b.seconds - a.seconds + leap) * nanosPerSecond + (b.nanos - a.nanos)

/-- the whole milliseconds from one instant to another, cut toward zero -/
def millisUntil (a b : Instant) : Int := (nanosUntil a b).tdiv 1000000

/-- the minutes from one instant to another, none if the other is earlier -/
def minutesUntil (a b : Instant) : Float := Float.ofNat (millisUntil a b).toNat / 60000.0

/-- the same day and time a year later, if there still is such a year -/
def nextYear? (t : Instant) : Option Instant :=
  let d := t.date.nextYear
  if d.year ≤ lastYear then some (ofDate d t.secondOfDay t.nanos) else none

/-- the nanoseconds since 1970 if they fit into 64 bits with a sign, and 0 otherwise -/
def epochNanos (t : Instant) : Int :=
  let n := t.seconds * nanosPerSecond + t.nanos
  if fitsInt64 n then n else 0

end Instant

end ContractAudit
