import Mathlib.Algebra.BigOperators.Group.List.Basic
import Mathlib.Algebra.Order.BigOperators.Group.List
import Mathlib.Order.SuccPred.IntervalSucc
import ContractAudit.Proofs.Calendar

/-!
# Dates in their order, and a year later

Dates are in the order of their days, so that each day has one date only.  The same date of the next
year is 365 days away, and one more if a February 29 comes between.

* `Date.IsBefore`: the order of dates by year, month and day.
* `Date.IsBefore.toDays_lt`: an earlier date is an earlier day.
* `Date.ofDays_toDays`: a date is the date of its day.
* `Date.PassesLeapDay`: a February 29 comes after one date and not after another.
* `Date.day_nextYear`, `Date.isValid_nextYear`: the date of the next year.

The main statement is `Date.toDays_nextYear`.
-/

namespace ContractAudit

/-! ## days before months and years -/

theorem sum_take_add_le (lengths : List Nat) {i j : Nat} (h : i < j) :
    (lengths.take i).sum + lengths.getD i 0 ≤ (lengths.take j).sum := by
  have hnext : (lengths.take i).sum + lengths.getD i 0 = (lengths.take (i + 1)).sum := by
    rw [List.take_add_one, List.sum_append, List.getD_eq_getElem?_getD]
    cases lengths[i]? <;> simp
  rw [hnext]
  exact ((List.take_sublist_take_left h).sum_le_sum fun _ _ => Nat.zero_le _)

theorem daysBeforeMonth_add_le (y : Int) {m m' : Nat} (hm : 1 ≤ m) (h : m < m') :
    daysBeforeMonth y m + daysInMonth y m ≤ daysBeforeMonth y m' := by
  have hsum := sum_take_add_le (monthLengths y) (i := m - 1) (j := m' - 1) (by omega)
  rw [List.sum_eq_foldr, List.sum_eq_foldr] at hsum
  rw [daysInMonth, if_neg (Nat.ne_of_gt hm)]
  exact hsum

theorem daysBeforeYear_mono {y y' : Int} (h : y ≤ y') : daysBeforeYear y ≤ daysBeforeYear y' := by
  refine monotone_int_of_le_succ (f := daysBeforeYear) (fun y => ?_) h
  rw [daysBeforeYear_succ]
  omega

/-- the leap days of a year, of which there is one or none -/
def leapDays (y : Int) : Nat := if isLeapYear y then 1 else 0

theorem leapDays_add_le (y : Int) : leapDays y + leapDays (y + 1) ≤ 1 := by
  have hfour {y : Int} (h : isLeapYear y) : y % 4 = 0 := by
    simp only [isLeapYear, Bool.and_eq_true, beq_iff_eq] at h
    exact h.1
  rw [leapDays, leapDays]
  by_cases h : isLeapYear y
  · have hnext : ¬ isLeapYear (y + 1) := fun hnext => by
      have h := hfour h
      have hnext := hfour hnext
      omega
    rw [if_pos h, if_neg hnext]
  · rw [if_neg h]
    split <;> omega

theorem isLeapYear_iff (y : Int) : isLeapYear y ↔ leapDays y = 1 := by
  rw [leapDays]
  split <;> simp [*]

theorem lengthOfFebruary_eq (y : Int) : (if isLeapYear y then 29 else 28) = 28 + leapDays y := by
  rw [leapDays]
  split <;> rfl

theorem sum_monthLengths_eq (y : Int) : (monthLengths y).sum = 365 + leapDays y := by
  rw [sum_monthLengths, leapDays]
  split <;> rfl

namespace Date

section
variable {a b d : Date}

/-- a date has one of twelve months -/
theorem IsValid.month (h : d.IsValid) : 1 ≤ d.month ∧ d.month ≤ 12 := by
  obtain ⟨hlow, hhigh⟩ := h
  rw [daysInMonth] at hhigh
  by_cases hzero : d.month = 0
  · rw [if_pos hzero] at hhigh
    omega
  rw [if_neg hzero, List.getD_eq_getElem?_getD] at hhigh
  by_contra hmonth
  have hlength : (monthLengths d.year).length = 12 := rfl
  rw [List.getElem?_eq_none (by omega)] at hhigh
  exact absurd (Nat.le_trans hlow hhigh) (by decide)

/-- a day of a year lies before the next year -/
theorem IsValid.day_le (h : d.IsValid) :
    daysBeforeMonth d.year d.month + d.day ≤ (monthLengths d.year).sum := by
  have hmonth := h.month
  have hsum : daysBeforeMonth d.year d.month + daysInMonth d.year d.month ≤
      daysBeforeMonth d.year 13 := daysBeforeMonth_add_le d.year hmonth.1 (by omega)
  have hall : daysBeforeMonth d.year 13 = (monthLengths d.year).sum := by
    rw [List.sum_eq_foldr]
    rfl
  have hday := h.2
  omega

/-! ## the order of dates -/

/-- the order of dates by year, month and day -/
def IsBefore (a b : Date) : Prop :=
  a.year < b.year ∨ a.year = b.year ∧ (a.month < b.month ∨ a.month = b.month ∧ a.day < b.day)

theorem isBefore_trichotomy (a b : Date) : a.IsBefore b ∨ a = b ∨ b.IsBefore a := by
  rcases a with ⟨y, m, d⟩
  rcases b with ⟨y', m', d'⟩
  simp only [IsBefore, Date.mk.injEq]
  omega

/-- an earlier date is an earlier day -/
theorem IsBefore.toDays_lt (h : a.IsBefore b) (ha : a.IsValid) (hb : b.IsValid) :
    a.toDays < b.toDays := by
  have hday := ha.2
  have hday' := hb.1
  rw [toDays, toDays]
  rcases h with hyear | ⟨hyear, hmonth | ⟨hmonth, hless⟩⟩
  · have hnext := daysBeforeYear_mono (Int.add_one_le_of_lt hyear)
    have hend := ha.day_le
    rw [daysBeforeYear_succ] at hnext
    omega
  · have hnext := daysBeforeMonth_add_le a.year ha.month.1 hmonth
    rw [hyear] at hnext hday ⊢
    omega
  · rw [hyear, hmonth]
    omega

theorem toDays_inj (ha : a.IsValid) (hb : b.IsValid) : a.toDays = b.toDays ↔ a = b := by
  refine ⟨fun h => ?_, congrArg toDays⟩
  rcases isBefore_trichotomy a b with hab | hab | hba
  · exact absurd h (hab.toDays_lt ha hb).ne
  · exact hab
  · exact absurd h (hba.toDays_lt hb ha).ne'

/-- a date is the date of its day -/
theorem ofDays_toDays (hd : d.IsValid) : ofDays d.toDays = d :=
  (toDays_inj (isValid_ofDays _) hd).1 (toDays_ofDays _)

end

/-! ## a year later -/

/-- only February depends on the year -/
theorem daysInMonth_eq (y : Int) (m : Nat) :
    daysInMonth y m = if m = 2 then 28 + leapDays y else daysInMonth 1 m := by
  match m with
  | 0 | 1 => rfl
  | 2 => exact lengthOfFebruary_eq y
  | m + 3 => rfl

/-- and so do the months behind it -/
theorem daysBeforeMonth_eq (y : Int) (m : Nat) :
    daysBeforeMonth y m = daysBeforeMonth 1 m + if m ≤ 2 then 0 else leapDays y := by
  match m with
  | 0 | 1 | 2 => rfl
  | m + 3 =>
    show 31 + ((if isLeapYear y then 29 else 28) + (List.take m _).foldr _ 0) =
      31 + (28 + (List.take m _).foldr _ 0) + leapDays y
    rw [lengthOfFebruary_eq]
    omega

/-- a February 29 comes after the one date, and not after the other -/
def PassesLeapDay (a b : Date) : Prop :=
  ∃ y : Int, isLeapYear y ∧ a.IsBefore ⟨y, 2, 29⟩ ∧ ¬ b.IsBefore ⟨y, 2, 29⟩

section
variable {d : Date} (h : d.IsValid)
include h

/-- the day of the month is kept, but for February 29 -/
theorem day_nextYear :
    d.nextYear.day = if d.month = 2 ∧ d.day = 29 then 28 else d.day := by
  have hday := h.2
  have hleap := leapDays_add_le d.year
  rw [daysInMonth_eq] at hday
  show min d.day (daysInMonth (d.year + 1) d.month) = _
  rw [daysInMonth_eq]
  by_cases hfebruary : d.month = 2
  · rw [if_pos hfebruary] at hday ⊢
    by_cases hlast : d.day = 29
    · rw [if_pos ⟨hfebruary, hlast⟩]
      omega
    · rw [if_neg fun h => hlast h.2]
      omega
  · rw [if_neg hfebruary] at hday ⊢
    rw [if_neg fun h => hfebruary h.1]
    exact min_eq_left hday

theorem isValid_nextYear : d.nextYear.IsValid := by
  refine ⟨?_, min_le_right _ _⟩
  rw [day_nextYear h]
  split
  · decide
  · exact h.1

/-- a February 29 comes between if it is still to come this year, or if next year has one and it
will have gone by -/
theorem passesLeapDay_nextYear_iff :
    d.PassesLeapDay d.nextYear ↔
      if d.month ≤ 2 then leapDays d.year = 1 ∧ ¬ (d.month = 2 ∧ d.day = 29)
      else leapDays (d.year + 1) = 1 := by
  -- the date of next year lies before its own February 29 if it lies in January or February
  have hfebruary : d.month = 2 → d.nextYear.day < 29 := by
    have hvalid := h.2
    have hleap := leapDays_add_le d.year
    rw [daysInMonth_eq] at hvalid
    intro hmonth
    rw [day_nextYear h]
    rw [if_pos hmonth] at hvalid
    split <;> omega
  have hyear : d.nextYear.year = d.year + 1 := rfl
  have hmonth : d.nextYear.month = d.month := rfl
  simp only [PassesLeapDay, IsBefore, hyear, hmonth, isLeapYear_iff]
  constructor
  · rintro ⟨y, hleap, hafter, hpassed⟩
    obtain rfl | rfl : y = d.year ∨ y = d.year + 1 := by omega
    · rw [if_pos (by omega)]
      exact ⟨hleap, by omega⟩
    · rw [if_neg (by omega)]
      exact hleap
  · intro hleap
    by_cases hearly : d.month ≤ 2
    · rw [if_pos hearly] at hleap
      have hvalid := h.2
      have hone := leapDays_add_le d.year
      rw [daysInMonth_eq] at hvalid
      refine ⟨d.year, hleap.1, ?_, by omega⟩
      split at hvalid <;> omega
    · rw [if_neg hearly] at hleap
      exact ⟨d.year + 1, hleap, by omega, by omega⟩

theorem toDays_nextYear_eq :
    d.nextYear.toDays = d.toDays + 365 +
      ((if d.month ≤ 2 then leapDays d.year else leapDays (d.year + 1) : ℕ) : ℤ) -
      if d.month = 2 ∧ d.day = 29 then 1 else 0 := by
  have hyear := daysBeforeYear_succ d.year
  rw [sum_monthLengths_eq] at hyear
  rw [toDays, toDays, day_nextYear h]
  show daysBeforeYear (d.year + 1) + daysBeforeMonth (d.year + 1) d.month + _ - 1 - epochDays = _
  rw [daysBeforeMonth_eq, daysBeforeMonth_eq d.year, hyear]
  split_ifs <;> omega

/-- **The same date of the next year** is 366 days away if a February 29 comes between, and 365 days
otherwise. -/
theorem toDays_nextYear :
    (d.PassesLeapDay d.nextYear → d.nextYear.toDays = d.toDays + 366) ∧
      (¬ d.PassesLeapDay d.nextYear → d.nextYear.toDays = d.toDays + 365) := by
  have hvalid := h.2
  have hleap := leapDays_add_le d.year
  rw [daysInMonth_eq] at hvalid
  rw [passesLeapDay_nextYear_iff h, toDays_nextYear_eq h]
  split at hvalid <;> split_ifs <;> omega

end

end Date

end ContractAudit
