import ContractAudit.Proofs.Calendar
import ContractAudit.Proofs.Numerals
import ContractAudit.Time.Rfc3339

/-!
# Instants as texts

* `Instant.readDigits_append`: digits are read up to what comes after them.
* `Instant.readYear_yearText`, `Instant.readTwo_padded`, `Instant.readFraction_fractionText`: the
  parts of a written instant are read back.
* `Instant.ofLocal?_clock`: the parts of an instant make up that instant.
* `Instant.isValid_of_ofLocal?`: parts of any kind make up an instant only within the range.

The main statements are `Instant.ofText?_rfc3339` and `Instant.isValid_of_ofText?`.
-/

namespace ContractAudit.Instant

open Text

/-! ## numbers of fixed width -/

section
variable (width n : Nat)

theorem toList_padded : (padded width n).toList =
    List.replicate (width - (Nat.toDigits 10 n).length) '0' ++ Nat.toDigits 10 n := by
  rw [padded]
  simp only [String.toList_append, String.toList_ofList, Nat.toString_eq_repr, Nat.toList_repr,
    ← String.length_toList]

theorem allDigits_padded : AllDigits (padded width n).toList := by
  rw [toList_padded]
  exact (allDigits_zeros _).append (allDigits_toDigits n)

theorem ofDigits_padded : ofDigits (padded width n).toList = n := by
  rw [toList_padded, ofDigits_zeros_append, ofDigits_toDigits]

theorem padded_ne_nil : (padded width n).toList ≠ [] := by
  rw [toList_padded]
  exact List.append_ne_nil_of_right_ne_nil _ Nat.toDigits_ne_nil

variable {width n}

/-- a number that needs no more digits is written with as many as it should have -/
theorem length_padded (hwidth : 0 < width) (hn : n < 10 ^ width) :
    (padded width n).toList.length = width := by
  have h := (Nat.length_toDigits_le_iff (by decide) hwidth).2 hn
  rw [toList_padded, List.length_append, List.length_replicate]
  exact Nat.sub_add_cancel h

end

/-! ## the parts of a text -/

theorem not_isBlank_of_isDigit {c : Char} (h : isDigit c) : ¬ isBlank c := by
  rw [isDigit_eq_isDigit] at h
  simp only [Char.isDigit, Bool.and_eq_true, decide_eq_true_eq] at h
  have hlow : 48 ≤ c.toNat := h.1
  have hhigh : c.toNat ≤ 57 := h.2
  simp [isBlank]
  omega

theorem trimStart_cons {c : Char} (hc : ¬ isBlank c) (s : List Char) :
    trimStart (c :: s) = c :: s := List.dropWhile_cons_of_neg hc

theorem trimStart_digits_append {ds : List Char} (hd : AllDigits ds) (hne : ds ≠ [])
    (s : List Char) : trimStart (ds ++ s) = ds ++ s := by
  cases ds with
  | nil => exact absurd rfl hne
  | cons c ds => exact trimStart_cons (not_isBlank_of_isDigit (hd c List.mem_cons_self)) _

/-- digits are read up to what comes after them, or up to as many as are wanted -/
theorem readDigits_append {most : Nat} {ds s : List Char} (hd : AllDigits ds) (hne : ds ≠ [])
    (hlength : ds.length ≤ most) (hs : ds.length = most ∨ NoDigitFirst s) :
    readDigits most (ds ++ s) = some (ds, s) := by
  have hfirst : NoDigitFirst (s.take (most - ds.length)) := by
    rcases hs with hmost | hs
    · rw [hmost, Nat.sub_self, List.take_zero]
      exact fun _ h => nomatch h
    · intro c hc
      exact hs c (by
        rw [List.head?_take] at hc
        split at hc
        · cases hc
        · exact hc)
  rw [readDigits, List.take_append, List.take_of_length_le hlength,
    (takeWhile_isDigit_append hd hfirst).1]
  show (if ds.isEmpty then none else some (ds, (ds ++ s).drop ds.length)) = _
  rw [List.isEmpty_eq_false_iff.2 hne, List.drop_left]
  rfl

theorem readTwo_padded {n : Nat} (hn : n < 100) (s : List Char) :
    readTwo ((padded 2 n).toList ++ s) = some (n, s) := by
  have hlength : (padded 2 n).toList.length = 2 := length_padded (by decide) hn
  rw [readTwo, trimStart_digits_append (allDigits_padded 2 n) (padded_ne_nil 2 n),
    readDigits_append (allDigits_padded 2 n) (padded_ne_nil 2 n) (Nat.le_of_eq hlength)
      (.inl hlength)]
  show some (ofDigits (padded 2 n).toList, s) = _
  rw [ofDigits_padded]

theorem skipMark_cons {c : Char} (hc : ¬ isBlank c) (s : List Char) :
    skipMark c (c :: s) = some s := by
  rw [skipMark, trimStart_cons hc]
  exact if_pos rfl

theorem noDigitFirst_cons {c : Char} (hc : ¬ isDigit c) (s : List Char) : NoDigitFirst (c :: s) := by
  rintro d ⟨⟩
  exact hc

/-- the digits of a number in front of a sign that ends it -/
theorem readDigits_padded (n most : Nat) {c : Char} {s : List Char} (hc : ¬ isDigit c)
    (hmost : (padded 4 n).toList.length ≤ most) :
    readDigits most ((padded 4 n).toList ++ c :: s) = some ((padded 4 n).toList, c :: s) :=
  readDigits_append (allDigits_padded 4 n) (padded_ne_nil 4 n) hmost (.inr (noDigitFirst_cons hc s))

/-- a year is read back, whatever its sign and its length -/
theorem readYear_yearText (y : Int) (s : List Char) :
    readYear ((yearText y).toList ++ '-' :: s) = some (y, '-' :: s) := by
  rw [yearText]
  by_cases hplain : 0 ≤ y ∧ y ≤ 9999
  · rw [if_pos hplain]
    have hlength : (padded 4 y.toNat).toList.length = 4 := length_padded (by decide) (by omega)
    have hread := readDigits_padded y.toNat 4 (c := '-') (s := s) (by decide)
      (Nat.le_of_eq hlength)
    rw [readYear, trimStart_digits_append (allDigits_padded 4 _) (padded_ne_nil 4 _)]
    -- a digit in front is no sign
    obtain ⟨c, ds, hcons⟩ := List.exists_cons_of_ne_nil (padded_ne_nil 4 y.toNat)
    have hc := allDigits_padded 4 y.toNat c (hcons ▸ List.mem_cons_self)
    have hvalue := ofDigits_padded 4 y.toNat
    rw [hcons] at hread hvalue ⊢
    rw [List.cons_append] at hread ⊢
    split
    · rename_i h
      rw [(List.cons.inj h).1] at hc
      exact absurd hc (by decide)
    · rename_i h
      rw [(List.cons.inj h).1] at hc
      exact absurd hc (by decide)
    · rw [hread]
      show some ((ofDigits (c :: ds) : Int), '-' :: s) = _
      rw [hvalue, Int.toNat_of_nonneg hplain.1]
  · rw [if_neg hplain]
    have hread := readDigits_padded y.natAbs ((padded 4 y.natAbs).toList ++ '-' :: s).length
      (c := '-') (s := s) (by decide)
      (by rw [List.length_append]; exact Nat.le_add_right _ _)
    by_cases hneg : y < 0
    · have hsign : "-".toList = ['-'] := rfl
      rw [if_pos hneg, String.toList_append, List.append_assoc, hsign, List.singleton_append,
        readYear, trimStart_cons (by decide)]
      simp only [hread, Option.map_some, ofDigits_padded]
      rw [Int.ofNat_natAbs_of_nonpos (Int.le_of_lt hneg), Int.neg_neg]
    · have hsign : "+".toList = ['+'] := rfl
      rw [if_neg hneg, String.toList_append, List.append_assoc, hsign, List.singleton_append,
        readYear, trimStart_cons (by decide)]
      simp only [hread, Option.map_some, ofDigits_padded]
      rw [Int.natAbs_of_nonneg (Int.not_lt.1 hneg)]

/-- digits behind a point count as nanoseconds -/
theorem readFraction_padded {width n : Nat} (hwidth : 0 < width) (hmost : width ≤ 9)
    (hn : n < 10 ^ width) {c : Char} (hc : ¬ isDigit c) (s : List Char) :
    readFraction (("." ++ padded width n).toList ++ c :: s) =
      some (n * 10 ^ (9 - width), c :: s) := by
  have hlength := length_padded hwidth hn
  have hread : readDigits 9 ((padded width n).toList ++ c :: s) = _ :=
    readDigits_append (allDigits_padded width n) (padded_ne_nil width n)
      (Nat.le_trans (Nat.le_of_eq hlength) hmost) (.inr (noDigitFirst_cons hc s))
  have hpoint : ".".toList = ['.'] := rfl
  rw [String.toList_append, List.append_assoc, hpoint, List.singleton_append, readFraction, hread]
  simp only [Option.bind_eq_bind, Option.bind_some, ofDigits_padded, hlength,
    List.dropWhile_cons_of_neg hc]
  rfl

/-- the fraction of a second is read back, whichever length it has -/
theorem readFraction_fractionText (t : Instant) {c : Char} (hc : ¬ isDigit c) (hpoint : c ≠ '.')
    (s : List Char) :
    readFraction (t.fractionText.toList ++ c :: s) = some (t.nanos % nanosPerSecond, c :: s) := by
  have hlt : t.nanos % nanosPerSecond < 1000000000 := Nat.mod_lt _ (by decide)
  rw [fractionText]
  generalize t.nanos % nanosPerSecond = n at hlt ⊢
  show readFraction ((if n = 0 then "" else _).toList ++ c :: s) = _
  by_cases hzero : n = 0
  · rw [if_pos hzero, hzero]
    show readFraction (c :: s) = _
    rw [readFraction]
    rintro r h
    exact hpoint (List.cons.inj h).1
  rw [if_neg hzero]
  by_cases hthree : n % 1000000 = 0
  · rw [if_pos hthree, readFraction_padded (by decide) (by decide) (by omega) hc]
    show some (n / 1000000 * 1000000, c :: s) = _
    rw [Nat.div_mul_cancel (Nat.dvd_of_mod_eq_zero hthree)]
  rw [if_neg hthree]
  by_cases hsix : n % 1000 = 0
  · rw [if_pos hsix, readFraction_padded (by decide) (by decide) (by omega) hc]
    show some (n / 1000 * 1000, c :: s) = _
    rw [Nat.div_mul_cancel (Nat.dvd_of_mod_eq_zero hsix)]
  · rw [if_neg hsix, readFraction_padded (by decide) (by decide) (by omega) hc]
    show some (n * 1, c :: s) = _
    rw [Nat.mul_one]

/-! ## instants -/

/-- the nanoseconds since 1970, in which leap seconds do not count -/
def nanosSince1970 (t : Instant) : Int := t.seconds * nanosPerSecond + t.nanos

theorem toList_rfc3339 (t : Instant) {h m s : Nat} (hclock : t.clock = (h, m, s))
    (zone : String) : (t.rfc3339 zone).toList = (yearText t.date.year).toList ++ '-' ::
      ((padded 2 t.date.month).toList ++ '-' :: ((padded 2 t.date.day).toList ++ 'T' ::
        ((padded 2 h).toList ++ ':' :: ((padded 2 m).toList ++ ':' :: ((padded 2 s).toList ++
          (t.fractionText.toList ++ zone.toList)))))) := by
  rw [rfc3339, hclock]
  simp [String.toList_append]

theorem isLeap_iff (t : Instant) : t.isLeap ↔ nanosPerSecond ≤ t.nanos := decide_eq_true_iff

theorem secondOfDay_lt (t : Instant) : t.secondOfDay < 86400 := by
  have h := Int.emod_lt_of_pos t.seconds (b := 86400) (by decide)
  rw [secondOfDay]
  omega

theorem clock_le (t : Instant) : t.clock.1 < 24 ∧ t.clock.2.1 < 60 ∧ t.clock.2.2 ≤ 60 := by
  have hlt := secondOfDay_lt t
  show t.secondOfDay / 3600 < 24 ∧ t.secondOfDay / 60 % 60 < 60 ∧
    t.secondOfDay % 60 + (if t.isLeap then 1 else 0) ≤ 60
  refine ⟨by omega, by omega, ?_⟩
  split <;> omega

section
variable {t : Instant} (ht : t.IsValid)
include ht

/-- the second that is written is 60 in a leap second, and only there -/
theorem second_eq_sixty_iff : t.clock.2.2 = 60 ↔ t.isLeap := by
  obtain ⟨-, -, -, hleap⟩ := ht
  show t.secondOfDay % 60 + (if t.isLeap then 1 else 0) = 60 ↔ _
  rw [secondOfDay]
  by_cases hl : t.isLeap
  · have h := hleap hl
    rw [if_pos hl]
    exact iff_of_true (by omega) hl
  · rw [if_neg hl]
    exact iff_of_false (by omega) hl

/-- without the leap second it is the second of the minute -/
theorem min_second : min t.clock.2.2 59 = t.secondOfDay % 60 := by
  have hsixty := second_eq_sixty_iff ht
  change t.secondOfDay % 60 + (if t.isLeap then 1 else 0) = 60 ↔ _ at hsixty
  show min (t.secondOfDay % 60 + (if t.isLeap then 1 else 0)) 59 = _
  by_cases hl : t.isLeap
  · have h := hsixty.2 hl
    rw [if_pos hl] at h ⊢
    omega
  · rw [if_neg hl]
    omega

theorem nanos_add_leap :
    t.nanos % nanosPerSecond + (if t.clock.2.2 = 60 then nanosPerSecond else 0) = t.nanos := by
  have hsixty := second_eq_sixty_iff ht
  obtain ⟨-, -, hnanos, -⟩ := ht
  rw [isLeap_iff] at hsixty
  by_cases hl : nanosPerSecond ≤ t.nanos
  · rw [if_pos (hsixty.2 hl)]
    simp only [nanosPerSecond] at hl hnanos ⊢
    omega
  · rw [if_neg fun h => hl (hsixty.1 h), Nat.add_zero]
    exact Nat.mod_eq_of_lt (Nat.not_le.1 hl)

theorem ofLocal?_clock :
    ofLocal? t.date t.clock.1 t.clock.2.1 t.clock.2.2 (t.nanos % nanosPerSecond) 0 = some t := by
  have hhour : t.clock.1 = t.secondOfDay / 3600 := rfl
  have hminute : t.clock.2.1 = t.secondOfDay / 60 % 60 := rfl
  rw [ofLocal?, if_pos ⟨Date.isValid_ofDays _, ht.1, ht.2.1, clock_le t⟩]
  have hdate : t.date.toDays = t.dayNumber := Date.toDays_ofDays _
  have hseconds : t.dayNumber * 86400 +
      ((t.secondOfDay / 3600 * 3600 + t.secondOfDay / 60 % 60 * 60 + t.secondOfDay % 60 : Nat) :
        Int) - 0 = t.seconds := by
    rw [dayNumber, secondOfDay]
    omega
  simp only [ofDate, min_second ht, nanos_add_leap ht, hdate, hhour, hminute, hseconds]
  exact if_pos ⟨ht.1, ht.2.1⟩

end

section
variable {y mo d h mi s f z : List Char} {year : Int} {month day hour minute second nanos : Nat}

theorem bind_of_eq_some {α β : Type} {x : Option α} {a : α} (hx : x = some a)
    (k : α → Option β) : (x >>= k) = k a := by
  rw [hx]
  rfl

/-- texts that are each read as a part of an instant are read one after another -/
theorem ofText?_of_parts (hyear : ∀ r, readYear (y ++ '-' :: r) = some (year, '-' :: r))
    (hmonth : ∀ r, readTwo (mo ++ r) = some (month, r))
    (hday : ∀ r, readTwo (d ++ r) = some (day, r))
    (hhour : ∀ r, readTwo (h ++ r) = some (hour, r))
    (hminute : ∀ r, readTwo (mi ++ r) = some (minute, r))
    (hsecond : ∀ r, readTwo (s ++ r) = some (second, r))
    (hnanos : readFraction (f ++ z) = some (nanos, z))
    (hzone : readZone (trimStart z) = some (0, [])) {text : String}
    (htext : text.toList = y ++ '-' :: (mo ++ '-' :: (d ++ 'T' :: (h ++ ':' ::
      (mi ++ ':' :: (s ++ (f ++ z))))))) :
    ofText? text = ofLocal? ⟨year, month, day⟩ hour minute second nanos 0 := by
  have hdash (r : List Char) : skipMark '-' ('-' :: r) = some r := skipMark_cons (by decide) r
  have hcolon (r : List Char) : skipMark ':' (':' :: r) = some r := skipMark_cons (by decide) r
  rw [ofText?, htext]
  refine (bind_of_eq_some (hyear _) _).trans ?_
  refine (bind_of_eq_some (hdash _) _).trans ?_
  refine (bind_of_eq_some (hmonth _) _).trans ?_
  refine (bind_of_eq_some (hdash _) _).trans ?_
  refine (bind_of_eq_some (hday _) _).trans ?_
  refine (bind_of_eq_some (hhour _) _).trans ?_
  refine (bind_of_eq_some (hcolon _) _).trans ?_
  refine (bind_of_eq_some (hminute _) _).trans ?_
  refine (bind_of_eq_some (hcolon _) _).trans ?_
  refine (bind_of_eq_some (hsecond _) _).trans ?_
  refine (bind_of_eq_some hnanos _).trans ?_
  exact bind_of_eq_some hzone _

end

section
variable {t : Instant} (ht : t.IsValid)
include ht

/-- a zone is read that begins with no digit and no point, and is not away from the zone Z -/
theorem ofText?_rfc3339_of_readZone {zone : String} {c : Char} {z : List Char}
    (hzone : zone.toList = c :: z) (hc : ¬ isDigit c) (hpoint : c ≠ '.')
    (hread : readZone (trimStart (c :: z)) = some (0, [])) :
    ofText? (t.rfc3339 zone) = some t := by
  obtain ⟨hhour, hminute, hsecond⟩ := clock_le t
  have hmonth : t.date.month < 100 := Nat.lt_of_le_of_lt (Date.month_ofDays_le _) (by decide)
  have hday : t.date.day < 100 := Nat.lt_of_le_of_lt (Date.day_ofDays_le _) (by decide)
  rw [ofText?_of_parts (readYear_yearText t.date.year) (readTwo_padded hmonth)
    (readTwo_padded hday) (readTwo_padded (Nat.lt_trans hhour (by decide)))
    (readTwo_padded (Nat.lt_trans hminute (by decide)))
    (readTwo_padded (Nat.lt_of_le_of_lt hsecond (by decide)))
    (readFraction_fractionText t hc hpoint z) hread (hzone ▸ toList_rfc3339 t rfl zone)]
  exact ofLocal?_clock ht

/-- **An instant that has a date within the range is read back** from its text. -/
theorem ofText?_rfc3339 : ofText? (t.rfc3339 "Z") = some t :=
  ofText?_rfc3339_of_readZone ht rfl (by decide) (by decide) (by decide)

/-- and so it is from the text that readers see -/
theorem ofText?_rfc3339_offset : ofText? (t.rfc3339 "+00:00") = some t :=
  ofText?_rfc3339_of_readZone ht rfl (by decide) (by decide) (by decide)

end

/-! ## what is read -/

theorem allDigits_of_readDigits {most : Nat} {s ds r : List Char}
    (h : readDigits most s = some (ds, r)) : AllDigits ds ∧ ds.length ≤ most := by
  rw [readDigits] at h
  change (if _ then none else some _) = _ at h
  split at h
  · cases h
  · cases h
    refine ⟨List.all_eq_true.1 List.all_takeWhile, ?_⟩
    exact Nat.le_trans (List.takeWhile_sublist _).length_le (List.length_take_le _ _)

/-- nine digits are less than a second -/
theorem lt_of_readFraction {s r : List Char} {n : Nat} (h : readFraction s = some (n, r)) :
    n < nanosPerSecond := by
  rw [readFraction.eq_def] at h
  split at h
  · rw [Option.bind_eq_bind, Option.bind_eq_some_iff] at h
    obtain ⟨⟨ds, rest⟩, hread, h⟩ := h
    cases h
    obtain ⟨hd, hlength⟩ := allDigits_of_readDigits hread
    calc ofDigits ds * 10 ^ (9 - ds.length)
        < 10 ^ ds.length * 10 ^ (9 - ds.length) :=
          Nat.mul_lt_mul_of_pos_right (ofDigits_lt hd) (Nat.pow_pos (by decide))
      _ = 10 ^ 9 := by rw [← Nat.pow_add, Nat.add_sub_cancel' hlength]
      _ = nanosPerSecond := rfl
  · cases h
    decide

theorem mod_of_readOffset {s r : List Char} {n : Nat} (h : readOffset s = some (n, r)) :
    n % 60 = 0 := by
  rw [readOffset] at h
  simp only [Option.bind_eq_bind, Option.bind_eq_some_iff, Prod.exists] at h
  obtain ⟨hour, s₁, -, minute, s₂, -, h⟩ := h
  split at h
  · cases h
    omega
  · cases h

/-- a zone is a whole number of minutes away -/
theorem mod_of_readZone {s r : List Char} {n : Int} (h : readZone s = some (n, r)) :
    n % 60 = 0 := by
  have hfar {s r : List Char} {n : Int} {f : Nat → Int} (hf : ∀ m, f m = m ∨ f m = -(m : Int))
      (h : (readOffset s).map (fun x => (f x.1, x.2)) = some (n, r)) : n % 60 = 0 := by
    obtain ⟨⟨m, r'⟩, hm, h⟩ := Option.map_eq_some_iff.1 h
    have hmod := mod_of_readOffset hm
    cases h
    show f m % 60 = 0
    rcases hf m with hf | hf <;> omega
  rw [readZone.eq_def] at h
  split at h
  · cases h
    rfl
  · cases h
    rfl
  · exact hfar (fun _ => .inl rfl) h
  · exact hfar (fun _ => .inr rfl) h
  · exact hfar (fun _ => .inr rfl) h
  · split at h
    · cases h
      rfl
    · cases h
  · cases h

/-- parts of any kind make up an instant only within the range -/
theorem isValid_of_ofLocal? {d : Date} {h m s nanos : Nat} {offset : Int} {t : Instant}
    (hnanos : nanos < nanosPerSecond) (hoffset : offset % 60 = 0)
    (hlocal : ofLocal? d h m s nanos offset = some t) : t.IsValid := by
  simp only [ofLocal?, Option.ite_none_right_eq_some, Option.some_inj] at hlocal
  obtain ⟨⟨-, -, -, -, -, hs⟩, ⟨hfirst, hlast⟩, rfl⟩ := hlocal
  refine ⟨hfirst, hlast, ?_, fun hleap => ?_⟩
  · show nanos + (if s = 60 then nanosPerSecond else 0) < 2 * nanosPerSecond
    split <;> omega
  · -- only the second 60 makes a leap second, and the zone moves it by whole minutes
    have hleap := (isLeap_iff _).1 hleap
    change nanosPerSecond ≤ nanos + (if s = 60 then nanosPerSecond else 0) at hleap
    show (d.toDays * 86400 + ((h * 3600 + m * 60 + min s 59 : Nat) : Int) - offset) % 60 = 59
    split at hleap <;> omega

/-- **Only instants within the range are read**, a leap second only behind a second 59. -/
theorem isValid_of_ofText? {text : String} {t : Instant} (h : ofText? text = some t) :
    t.IsValid := by
  rw [ofText?] at h
  obtain ⟨⟨year, s₁⟩, -, h⟩ := Option.bind_eq_some_iff.1 h
  obtain ⟨s₂, -, h⟩ := Option.bind_eq_some_iff.1 h
  obtain ⟨⟨month, s₃⟩, -, h⟩ := Option.bind_eq_some_iff.1 h
  obtain ⟨s₄, -, h⟩ := Option.bind_eq_some_iff.1 h
  obtain ⟨⟨day, s₅⟩, -, h⟩ := Option.bind_eq_some_iff.1 h
  cases s₅ with
  | nil => cases h
  | cons c s₅ =>
    change (if isSeparator c then _ else none) = some t at h
    obtain ⟨-, h⟩ := Option.ite_none_right_eq_some.1 h
    obtain ⟨⟨hour, s₆⟩, -, h⟩ := Option.bind_eq_some_iff.1 h
    obtain ⟨s₇, -, h⟩ := Option.bind_eq_some_iff.1 h
    obtain ⟨⟨minute, s₈⟩, -, h⟩ := Option.bind_eq_some_iff.1 h
    obtain ⟨s₉, -, h⟩ := Option.bind_eq_some_iff.1 h
    obtain ⟨⟨second, s₁₀⟩, -, h⟩ := Option.bind_eq_some_iff.1 h
    obtain ⟨⟨nanos, s₁₁⟩, hnanos, h⟩ := Option.bind_eq_some_iff.1 h
    obtain ⟨⟨offset, s₁₂⟩, hoffset, h⟩ := Option.bind_eq_some_iff.1 h
    obtain ⟨-, h⟩ := Option.ite_none_right_eq_some.1 h
    exact isValid_of_ofLocal? (lt_of_readFraction hnanos) (mod_of_readZone hoffset) h

end ContractAudit.Instant
