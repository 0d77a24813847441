import ContractAudit.Proofs.FloatRounding
import ContractAudit.Proofs.Lifecycle
import ContractAudit.Proofs.NextYears
import ContractAudit.Proofs.Timestamps

/-!
# The end of an audit

An audit that ends has taken a number of minutes, and one that is completed is due again a year
later.

* `Instant.HasMillisUntil s e n`: `n` whole milliseconds lie between two instants.
* `Instant.hasMillisUntil_millisUntil`: outside leap seconds they are what is computed.
* `Instant.minutesUntil_le`: a later end does not make an audit shorter.
* `Instant.IsYearLater`, `Instant.IsDaysLater`: an instant a year or a number of days later.
* `Instant.nextYear?_spec`: the same date and time of the next year.

The main statement is `ends_of_audits`.
-/

namespace ContractAudit

namespace Instant

/-! ## the time between two instants -/

/-- `n` whole milliseconds lie between the instants, and none if the second one is earlier -/
def HasMillisUntil (s e : Instant) (n : Nat) : Prop :=
  (e.nanosSince1970 < s.nanosSince1970 → n = 0) ∧
    (s.nanosSince1970 ≤ e.nanosSince1970 →
      n * 1000000 ≤ e.nanosSince1970 - s.nanosSince1970 ∧
        e.nanosSince1970 - s.nanosSince1970 < (n + 1) * 1000000)

section
variable {s e e' : Instant}

theorem nanosUntil_eq (hs : ¬ s.isLeap) (he : ¬ e.isLeap) :
    s.nanosUntil e = e.nanosSince1970 - s.nanosSince1970 := by
  rw [nanosUntil, if_neg fun h => hs h.2, if_neg fun h => he h.2, nanosSince1970, nanosSince1970,
    add_zero, sub_mul]
  omega

/-- outside leap seconds the whole milliseconds are what is computed -/
theorem hasMillisUntil_millisUntil (hs : ¬ s.isLeap) (he : ¬ e.isLeap) :
    s.HasMillisUntil e (s.millisUntil e).toNat := by
  rw [HasMillisUntil, millisUntil, nanosUntil_eq hs he]
  generalize e.nanosSince1970 = b
  generalize s.nanosSince1970 = a
  constructor
  · intro hlt
    have hneg : (b - a).tdiv 1000000 ≤ (0 : Int).tdiv 1000000 :=
      Int.tdiv_le_tdiv (by decide) (by omega)
    exact Int.toNat_of_nonpos hneg
  · intro hle
    rw [Int.tdiv_eq_ediv_of_nonneg (by omega)]
    omega

theorem HasMillisUntil.le {n n' : Nat} (h : s.HasMillisUntil e n) (h' : s.HasMillisUntil e' n')
    (hle : e.nanosSince1970 ≤ e'.nanosSince1970) : n ≤ n' := by
  obtain ⟨hbefore, hafter⟩ := h
  obtain ⟨-, hafter'⟩ := h'
  by_cases hearly : e.nanosSince1970 < s.nanosSince1970
  · rw [hbefore hearly]
    exact Nat.zero_le n'
  · have hmillis := hafter (by omega)
    have hmillis' := hafter' (by omega)
    omega

/-- the years that have instants are fewer than ten million million seconds -/
theorem IsValid.seconds_bounds {t : Instant} (ht : t.IsValid) :
    -10 ^ 13 ≤ t.seconds ∧ t.seconds ≤ 10 ^ 13 := by
  obtain ⟨hfirst, hlast, -⟩ := ht
  obtain ⟨hlow, hhigh⟩ := Date.yearOfDay_spec (t.dayNumber + epochDays)
  change firstYear ≤ Date.yearOfDay (t.dayNumber + epochDays) at hfirst
  change Date.yearOfDay (t.dayNumber + epochDays) ≤ lastYear at hlast
  generalize Date.yearOfDay (t.dayNumber + epochDays) = y at hfirst hlast hlow hhigh
  have hyear := (daysBeforeYear_bounds y).1
  have hnext := (daysBeforeYear_bounds (y + 1)).2
  rw [firstYear] at hfirst
  rw [lastYear] at hlast
  rw [dayNumber, epochDays] at hlow hhigh
  omega

theorem HasMillisUntil.lt {n : Nat} (h : s.HasMillisUntil e n) (hs : s.IsValid) (he : e.IsValid) :
    n < 2 ^ 64 := by
  obtain ⟨hbefore, hafter⟩ := h
  have hseconds := hs.seconds_bounds
  have hseconds' := he.seconds_bounds
  have hnanos := he.2.2.1
  rw [nanosSince1970, nanosSince1970, nanosPerSecond] at hbefore hafter
  rw [nanosPerSecond] at hnanos
  omega

open FloatRounding in
theorem isNormal_minute : IsNormal (-37) (-37) 60000 (60000.0 : Float).toModel.unpack := by
  have hunpack : (60000.0 : Float).toModel.unpack =
      .finite .positive (60000 * 2 ^ 37) (-37) (by decide) := by rfl
  have hvalue : (60000 : ℚ) = (60000 * 2 ^ 37 : ℕ) * 2 ^ (-37 : ℤ) := by norm_num
  rw [hunpack, hvalue]
  exact .finite (by decide) (by decide) le_rfl le_rfl

theorem zero_le_minutesUntil (hs : s.IsValid) (hs' : ¬ s.isLeap) (he : e.IsValid)
    (he' : ¬ e.isLeap) : 0 ≤ s.minutesUntil e :=
  FloatRounding.zero_le_ofNat_div isNormal_minute (by decide) (by decide)
    ((hasMillisUntil_millisUntil hs' he').lt hs he)

/-- a later end does not make an audit shorter -/
theorem minutesUntil_le {l : Instant} (hs : s.IsValid) (hs' : ¬ s.isLeap) (he' : ¬ e.isLeap)
    (hl : l.IsValid) (hl' : ¬ l.isLeap) (hle : e.nanosSince1970 ≤ l.nanosSince1970) :
    s.minutesUntil e ≤ s.minutesUntil l :=
  FloatRounding.ofNat_div_le isNormal_minute (by decide) (by decide)
    ((hasMillisUntil_millisUntil hs' he').le (hasMillisUntil_millisUntil hs' hl') hle)
    ((hasMillisUntil_millisUntil hs' hl').lt hs hl)

end

/-! ## a year later -/

/-- the same month, day and time of the next year, on February 28 if there is no such day -/
structure IsYearLater (t next : Instant) : Prop where
  year : next.date.year = t.date.year + 1
  month : next.date.month = t.date.month
  day : next.date.day = if t.date.month = 2 ∧ t.date.day = 29 then 28 else t.date.day
  secondOfDay : next.secondOfDay = t.secondOfDay
  nanos : next.nanos = t.nanos

/-- a number of whole days later -/
def IsDaysLater (t : Instant) (n : Nat) (next : Instant) : Prop :=
  next.seconds = t.seconds + n * 86400 ∧ next.nanos = t.nanos

section
variable {d : Date} {second : Nat} (hsecond : second < 86400) (nanos : Nat)
include hsecond

theorem date_ofDate (hd : d.IsValid) : (ofDate d second nanos).date = d := by
  have hday : (ofDate d second nanos).dayNumber = d.toDays := by
    show (d.toDays * 86400 + second) / 86400 = d.toDays
    omega
  rw [date, hday, Date.ofDays_toDays hd]

theorem secondOfDay_ofDate : (ofDate d second nanos).secondOfDay = second := by
  show ((d.toDays * 86400 + second) % 86400).toNat = second
  omega

end

section
variable {t next : Instant} (ht : t.IsValid)
include ht

/-- there is no next year if and only if the year is the last one -/
theorem nextYear?_eq_none_iff : t.nextYear? = none ↔ t.date.year = lastYear := by
  have hlast := ht.2.1
  show (if t.date.year + 1 ≤ lastYear then _ else none) = none ↔ _
  split
  · exact iff_of_false nofun (by omega)
  · exact iff_of_true rfl (by omega)

/-- the same date and time of the next year, and how far away it is -/
theorem nextYear?_spec (h : t.nextYear? = some next) :
    next.IsValid ∧ t.IsYearLater next ∧
      (t.date.PassesLeapDay next.date → t.IsDaysLater 366 next) ∧
      (¬ t.date.PassesLeapDay next.date → t.IsDaysLater 365 next) := by
  have hdate : t.date.IsValid := Date.isValid_ofDays _
  have hsecond := secondOfDay_lt t
  obtain ⟨hlast, h⟩ := Option.ite_none_right_eq_some.1 h
  obtain rfl := Option.some.inj h
  have hnext := date_ofDate hsecond t.nanos (Date.isValid_nextYear hdate)
  have htime := secondOfDay_ofDate (d := t.date.nextYear) hsecond t.nanos
  have hseconds : t.seconds = t.date.toDays * 86400 + t.secondOfDay := by
    rw [date, Date.toDays_ofDays, dayNumber, secondOfDay]
    omega
  obtain ⟨hfirst, -, hnanos, hleap⟩ := ht
  obtain ⟨hpasses, hnot⟩ := Date.toDays_nextYear hdate
  rw [hnext]
  refine ⟨⟨?_, ?_, hnanos, fun hl => ?_⟩, ⟨?_, ?_, ?_, htime, rfl⟩, fun h => ⟨?_, rfl⟩,
    fun h => ⟨?_, rfl⟩⟩
  · rw [hnext]
    exact hfirst.trans (Int.le_add_one le_rfl)
  · rw [hnext]
    exact hlast
  · have hleap := hleap hl
    show (t.date.nextYear.toDays * 86400 + (t.secondOfDay : Int)) % 60 = 59
    omega
  · rw [hnext]
    rfl
  · rw [hnext]
    rfl
  · rw [hnext]
    exact Date.day_nextYear hdate
  · have hdays := hpasses h
    show t.date.nextYear.toDays * 86400 + (t.secondOfDay : Int) = t.seconds + 366 * 86400
    omega
  · have hdays := hnot h
    show t.date.nextYear.toDays * 86400 + (t.secondOfDay : Int) = t.seconds + 365 * 86400
    omega

end

end Instant

/-! ## reports -/

/-- **An audit in progress ends** with the minutes that it took, in whole milliseconds: none if it
ends before it starts, and no fewer if it ends later.  If it is completed with an outcome it is due
again at the same date and time of the next year, which is missing only after the last year; the
other ways to end it set no such date. -/
theorem ends_of_audits {r : AuditReport} (hr : r.status = .inProgress)
    (hstart : r.startTime.IsValid) (hstart' : ¬ r.startTime.isLeap) {e : Instant} (he : e.IsValid)
    (he' : ¬ e.isLeap) (outcome : AuditOutcome) (pattern error : String) :
    (∃ n, r.startTime.HasMillisUntil e n ∧ ∃ x : Float, x = Float.ofNat n / 60000.0 ∧
      (r.complete outcome e).durationMinutes = some x ∧
      (r.completeEmpty pattern e).durationMinutes = some x ∧
      (r.fail error e).durationMinutes = some x ∧ 0 ≤ x ∧
      ∀ (later : Instant) (outcome' : AuditOutcome), later.IsValid → ¬ later.isLeap →
        e.nanosSince1970 ≤ later.nanosSince1970 →
        ∃ y, (r.complete outcome' later).durationMinutes = some y ∧ x ≤ y) ∧
    ((r.complete outcome e).nextAuditDate = none ↔ e.date.year = 262142) ∧
    (∀ next ∈ (r.complete outcome e).nextAuditDate, next.IsValid ∧ e.IsYearLater next ∧
      (e.date.PassesLeapDay next.date → e.IsDaysLater 366 next) ∧
      (¬ e.date.PassesLeapDay next.date → e.IsDaysLater 365 next)) ∧
    (r.completeEmpty pattern e).nextAuditDate = r.nextAuditDate ∧
    (r.fail error e).nextAuditDate = r.nextAuditDate := by
  have hcompleted : r.status.canBecome .completed := by
    rw [hr]
    rfl
  have hfailed : r.status.canBecome .failed := by
    rw [hr]
    rfl
  have hcomplete (o : AuditOutcome) (l : Instant) :
      (r.complete o l).durationMinutes = some (r.startTime.minutesUntil l) ∧
        (r.complete o l).nextAuditDate = l.nextYear? := by
    rw [AuditReport.complete, AuditReport.finish?_of_canBecome hcompleted]
    exact ⟨rfl, rfl⟩
  have hempty : (r.completeEmpty pattern e).durationMinutes = some (r.startTime.minutesUntil e) ∧
      (r.completeEmpty pattern e).nextAuditDate = r.nextAuditDate := by
    rw [AuditReport.completeEmpty, AuditReport.finish?_of_canBecome hcompleted]
    exact ⟨rfl, rfl⟩
  have hfail : (r.fail error e).durationMinutes = some (r.startTime.minutesUntil e) ∧
      (r.fail error e).nextAuditDate = r.nextAuditDate := by
    rw [AuditReport.fail, AuditReport.finish?_of_canBecome hfailed]
    exact ⟨rfl, rfl⟩
  have hlater (l : Instant) (o : AuditOutcome) (hl : l.IsValid) (hl' : ¬ l.isLeap)
      (hle : e.nanosSince1970 ≤ l.nanosSince1970) :
      ∃ y, (r.complete o l).durationMinutes = some y ∧ r.startTime.minutesUntil e ≤ y :=
    ⟨_, (hcomplete o l).1, Instant.minutesUntil_le hstart hstart' he' hl hl' hle⟩
  refine ⟨⟨_, Instant.hasMillisUntil_millisUntil hstart' he', _, rfl, (hcomplete outcome e).1,
    hempty.1, hfail.1, Instant.zero_le_minutesUntil hstart hstart' he he', hlater⟩, ?_, ?_,
    hempty.2, hfail.2⟩
  · rw [(hcomplete outcome e).2]
    exact Instant.nextYear?_eq_none_iff he
  · rw [(hcomplete outcome e).2]
    exact fun next hnext => Instant.nextYear?_spec he hnext

/-- an audit of an hour on a February 29 -/
theorem ends_of_audits_leapDay :
    let r := { AuditReport.pending "AUDIT" "project" .basic ⟨1709208000, 0⟩ with
      status := .inProgress }
    let e : Instant := ⟨1709211600, 0⟩
    let outcome : AuditOutcome := ⟨[], ⟨1, 0, 0, 0, 0, 0⟩, [], .noInput⟩
    (r.status = .inProgress ∧ r.startTime.IsValid ∧ ¬ r.startTime.isLeap ∧ e.IsValid ∧
      ¬ e.isLeap) ∧
    (∃ x, (r.complete outcome e).durationMinutes = some x ∧ 0 ≤ x) ∧
    ∃ next ∈ (r.complete outcome e).nextAuditDate, next.date.year = 2025 ∧ next.date.day = 28 := by
  intro r e outcome
  have hvalid : r.startTime.IsValid ∧ ¬ r.startTime.isLeap ∧ e.IsValid ∧ ¬ e.isLeap := by
    decide +kernel
  obtain ⟨hstart, hstart', he, he'⟩ := hvalid
  have hdate : e.date = ⟨2024, 2, 29⟩ := by decide +kernel
  obtain ⟨⟨n, -, x, -, hx, -, -, hpos, -⟩, hnone, hnext, -⟩ :=
    ends_of_audits (r := r) rfl hstart hstart' he he' outcome "*.sol" "error"
  refine ⟨⟨rfl, hstart, hstart', he, he'⟩, ⟨x, hx, hpos⟩, ?_⟩
  rw [hdate] at hnone
  obtain ⟨next, hdue⟩ := Option.ne_none_iff_exists'.1 (mt hnone.1 (by decide))
  obtain ⟨-, hlater, -⟩ := hnext next hdue
  have hyear := hlater.year
  have hday := hlater.day
  rw [hdate] at hyear hday
  exact ⟨next, hdue, hyear, hday⟩

end ContractAudit
