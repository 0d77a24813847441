import Mathlib.Algebra.Order.Ring.Nat
import Mathlib.Data.List.Basic
import ContractAudit.Time.Calendar

/-!
# Days and dates

* `daysBeforeYear_succ`: a year is as long as its months together.
* `Date.yearOfDay_spec`: the year of a day begins no later than the day, and the next one later.
* `Date.monthAndDay_spec`: a day of a year lies in one of the months.
* `Date.toDays_ofDays`: the date of a day is that day.
* `Date.isValid_ofDays`: and the calendar has it.
-/

namespace ContractAudit

/-! ## years -/

/-- the days before a year are as many as 400 years of 146097 days give, up to two -/
theorem daysBeforeYear_bounds (y : Int) :
    146097 * y - 396 ≤ 400 * daysBeforeYear y ∧ 400 * daysBeforeYear y ≤ 146097 * y + 699 := by
  rw [daysBeforeYear]
  omega

theorem sum_monthLengths (y : Int) :
    (monthLengths y).sum = if isLeapYear y then 366 else 365 := by
  cases h : isLeapYear y <;> simp [monthLengths, h]

theorem daysBeforeYear_succ (y : Int) :
    daysBeforeYear (y + 1) = daysBeforeYear y + (monthLengths y).sum := by
  rw [sum_monthLengths, daysBeforeYear, daysBeforeYear]
  by_cases h : isLeapYear y
  · rw [if_pos h]
    simp only [isLeapYear, Bool.and_eq_true, Bool.or_eq_true, beq_iff_eq, bne_iff_ne] at h
    omega
  · rw [if_neg h]
    simp only [isLeapYear, Bool.and_eq_true, Bool.or_eq_true, beq_iff_eq, bne_iff_ne] at h
    omega

/-! ## months -/

namespace Date

/-- the year of a day begins no later than the day, and the next one later -/
theorem yearOfDay_spec (n : Int) :
    daysBeforeYear (yearOfDay n) ≤ n ∧ n < daysBeforeYear (yearOfDay n + 1) := by
  rw [yearOfDay]
  show daysBeforeYear (if n < daysBeforeYear (n * 400 / 146097) then _ else _) ≤ n ∧
    n < daysBeforeYear ((if n < daysBeforeYear (n * 400 / 146097) then _ else _) + 1)
  have hlow : daysBeforeYear (n * 400 / 146097 - 1) ≤ n := by
    have h := (daysBeforeYear_bounds (n * 400 / 146097 - 1)).2
    omega
  have hhigh : n < daysBeforeYear (n * 400 / 146097 + 1 + 1) := by
    have h := (daysBeforeYear_bounds (n * 400 / 146097 + 1 + 1)).1
    omega
  by_cases hbefore : n < daysBeforeYear (n * 400 / 146097)
  · rw [if_pos hbefore, Int.sub_add_cancel]
    exact ⟨hlow, hbefore⟩
  rw [if_neg hbefore]
  by_cases hafter : daysBeforeYear (n * 400 / 146097 + 1) ≤ n
  · rw [if_pos hafter]
    exact ⟨hafter, hhigh⟩
  · rw [if_neg hafter]
    exact ⟨Int.not_lt.1 hbefore, Int.not_le.1 hafter⟩

/-- a day within some months lies in one of them, behind those before it -/
theorem monthAndDay_spec (m : Nat) {n : Nat} {lengths : List Nat} (h : n < lengths.sum) :
    ∃ i d, monthAndDay m n lengths = (m + i, d + 1) ∧ i < lengths.length ∧
      d < lengths.getD i 0 ∧ (lengths.take i).sum + d = n := by
  induction lengths generalizing m n with
  | nil => exact absurd h (Nat.not_lt_zero n)
  | cons l ls ih =>
    rw [monthAndDay]
    by_cases hl : n < l
    · rw [if_pos hl]
      exact ⟨0, n, rfl, Nat.succ_pos _, hl, Nat.zero_add n⟩
    · rw [if_neg hl]
      rw [List.sum_cons] at h
      obtain ⟨i, d, hmonth, hi, hd, hn⟩ := ih (m + 1) (n := n - l) (by omega)
      refine ⟨i + 1, d, ?_, Nat.succ_lt_succ hi, hd, ?_⟩
      · rw [hmonth, Nat.add_assoc, Nat.add_comm 1 i]
      · rw [List.take_succ_cons, List.sum_cons]
        omega

/-- the date of a day, with the days that it has behind the first of its year -/
theorem ofDays_spec (n : Int) :
    ∃ i d, i < 12 ∧ d < (monthLengths (ofDays n).year).getD i 0 ∧ (ofDays n).month = i + 1 ∧
      (ofDays n).day = d + 1 ∧
      daysBeforeYear (ofDays n).year + ((monthLengths (ofDays n).year).take i).sum + d =
        n + epochDays := by
  obtain ⟨hfirst, hnext⟩ := yearOfDay_spec (n + epochDays)
  rw [daysBeforeYear_succ] at hnext
  have hday : (n + epochDays - daysBeforeYear (yearOfDay (n + epochDays))).toNat <
      (monthLengths (yearOfDay (n + epochDays))).sum := by omega
  obtain ⟨i, d, hmonth, hi, hd, hsum⟩ := monthAndDay_spec 1 hday
  have hdate : ofDays n = ⟨yearOfDay (n + epochDays), i + 1, d + 1⟩ := by
    rw [ofDays]
    simp only [hmonth, Nat.add_comm 1 i]
  rw [hdate]
  refine ⟨i, d, hi, hd, rfl, rfl, ?_⟩
  show daysBeforeYear (yearOfDay (n + epochDays)) +
    ((monthLengths (yearOfDay (n + epochDays))).take i).sum + d = _
  omega

theorem toDays_ofDays (n : Int) : (ofDays n).toDays = n := by
  obtain ⟨i, d, -, -, hmonth, hday, hsum⟩ := ofDays_spec n
  rw [toDays, daysBeforeMonth, hmonth, hday, Nat.add_sub_cancel]
  rw [List.sum_eq_foldr] at hsum
  omega

theorem isValid_ofDays (n : Int) : (ofDays n).IsValid := by
  obtain ⟨i, d, -, hd, hmonth, hday, -⟩ := ofDays_spec n
  rw [IsValid, daysInMonth, hmonth, hday, if_neg (Nat.succ_ne_zero i), Nat.add_sub_cancel]
  exact ⟨Nat.succ_pos d, hd⟩

theorem month_ofDays_le (n : Int) : (ofDays n).month ≤ 12 := by
  obtain ⟨i, d, hi, -, hmonth, -⟩ := ofDays_spec n
  omega

theorem getD_monthLengths_le (y : Int) (i : Nat) : (monthLengths y).getD i 0 ≤ 31 := by
  have h : ∀ l ∈ monthLengths y, l ≤ 31 := by
    cases h : isLeapYear y <;> simp [monthLengths, h]
  rw [List.getD_eq_getElem?_getD]
  cases hl : (monthLengths y)[i]? with
  | none => exact Nat.zero_le 31
  | some l => exact h l (List.mem_of_getElem? hl)

theorem day_ofDays_le (n : Int) : (ofDays n).day ≤ 31 := by
  obtain ⟨i, d, -, hd, -, hday, -⟩ := ofDays_spec n
  have h := getD_monthLengths_le (ofDays n).year i
  omega

end Date

end ContractAudit
