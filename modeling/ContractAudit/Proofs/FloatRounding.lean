import Mathlib
import ContractAudit.Proofs.FloatOrder
import ContractAudit.Proofs.FloatRange

/-!
# Rounding to the nearest number

A count is rounded to a floating-point number, and so is the quotient of two such numbers.  Each
time one of the nearest numbers is taken, and of two values the larger one cannot be rounded to
something smaller.

* `Stands m z`: a mantissa with the bits behind it stands for a fraction.
* `IsNearest x v`: no number with a mantissa of 53 bits is nearer to `x` than `v` is.
* `IsNearest.le`: nearest numbers are in the order of what they are nearest to.
* `IsNormal low high v u`: the number `u` is the fraction `v`, with a mantissa of full length.
* `isNormal_ofNat`, `IsNormal.div`: counts and quotients.
* `zero_le_ofNat_div`: a count divided by a positive number is not negative.

The main statement is `ofNat_div_le`.
-/

namespace ContractAudit.FloatRounding

open Float.Model (Format totalExponent)
open Float.Model.UnpackedFloat Decimal

/-! ## mantissas with bits behind them -/

/-- The mantissa stands for the fraction.  The first bit behind it counts one half, and the second
one says that something less than a half is left. -/
def Stands : ExtendedMantissa → ℚ → Prop
  | ⟨m, false, false⟩, z => z = m
  | ⟨m, false, true⟩, z => (m : ℚ) < z ∧ z < m + 1 / 2
  | ⟨m, true, false⟩, z => z = m + 1 / 2
  | ⟨m, true, true⟩, z => (m : ℚ) + 1 / 2 < z ∧ z < m + 1

theorem Stands.shiftRightOne {m : ExtendedMantissa} {z : ℚ} (h : Stands m z) :
    Stands m.shiftRightOne (z / 2) := by
  rcases m with ⟨m, r, s⟩
  -- the bit that is cut off becomes the first one behind the mantissa
  rcases Nat.even_or_odd' m with ⟨n, rfl | rfl⟩
  · have hcut : ExtendedMantissa.shiftRightOne ⟨2 * n, r, s⟩ = ⟨n, false, r || s⟩ := by
      simp [ExtendedMantissa.shiftRightOne]
    rw [hcut]
    cases r <;> cases s <;> simp only [Stands, Bool.or_true, Bool.or_false, Nat.cast_mul] at h ⊢ <;>
      push_cast at h
    · linarith
    · constructor <;> linarith
    · constructor <;> linarith
    · constructor <;> linarith
  · have hcut : ExtendedMantissa.shiftRightOne ⟨2 * n + 1, r, s⟩ = ⟨n, true, r || s⟩ := by
      simp [ExtendedMantissa.shiftRightOne, Nat.mul_add_div]
    rw [hcut]
    cases r <;> cases s <;> simp only [Stands, Bool.or_true, Bool.or_false] at h ⊢ <;>
      push_cast at h
    · linarith
    · constructor <;> linarith
    · constructor <;> linarith
    · constructor <;> linarith

theorem Stands.shiftRight {m : ExtendedMantissa} {z : ℚ} (h : Stands m z) (k : Nat) :
    Stands (m >>> k) (z / 2 ^ k) := by
  induction k with
  | zero =>
    rw [pow_zero, div_one]
    exact h
  | succ k ih =>
    rw [pow_succ, ← div_div]
    exact ih.shiftRightOne

theorem Stands.abs_sub_le {m : ExtendedMantissa} {z : ℚ} (h : Stands m z) :
    |(m.roundedMantissa : ℚ) - z| ≤ 1 / 2 := by
  rcases m with ⟨m, r, s⟩
  rw [abs_le]
  cases r <;> cases s <;> simp only [Stands] at h
  · show -(1 / 2) ≤ (m : ℚ) - z ∧ (m : ℚ) - z ≤ 1 / 2
    constructor <;> linarith
  · show -(1 / 2) ≤ (m : ℚ) - z ∧ (m : ℚ) - z ≤ 1 / 2
    constructor <;> linarith
  · -- a half is rounded to the even one of its neighbours
    have hbit : m % 2 ≤ 1 := Nat.le_of_lt_succ (Nat.mod_lt m Nat.two_pos)
    have hbit : ((m % 2 : ℕ) : ℚ) ≤ 1 := by exact_mod_cast hbit
    have hbit' : (0 : ℚ) ≤ (m % 2 : ℕ) := Nat.cast_nonneg _
    show -(1 / 2) ≤ ((m + m % 2 : ℕ) : ℚ) - z ∧ ((m + m % 2 : ℕ) : ℚ) - z ≤ 1 / 2
    rw [Nat.cast_add]
    constructor <;> linarith
  · show -(1 / 2) ≤ ((m + 1 : ℕ) : ℚ) - z ∧ ((m + 1 : ℕ) : ℚ) - z ≤ 1 / 2
    rw [Nat.cast_add, Nat.cast_one]
    constructor <;> linarith

theorem Stands.mantissa_le {m : ExtendedMantissa} {z : ℚ} (h : Stands m z) :
    (m.mantissa : ℚ) ≤ z := by
  rcases m with ⟨m, r, s⟩
  cases r <;> cases s <;> simp only [Stands] at h ⊢ <;> linarith

theorem stands_exact (m : Nat) : Stands (.ofMantissaAndAccuracy m .exact) m := rfl

/-- a quotient of whole numbers with what its remainder says -/
theorem stands_div (a : Nat) {b : Nat} (hb : 0 < b) :
    Stands (.ofMantissaAndAccuracy (a / b) (accuracyOfFraction (a % b) b)) (a / b : ℚ) := by
  have hb' : (0 : ℚ) < b := Nat.cast_pos.2 hb
  have hlt : ((a % b : ℕ) : ℚ) < b := Nat.cast_lt.2 (Nat.mod_lt a hb)
  obtain ⟨x, hx⟩ : ∃ x : ℚ, x = (a % b : ℕ) / b := ⟨_, rfl⟩
  have hmod : x * b = (a % b : ℕ) := (eq_div_iff hb'.ne').1 hx
  have hdiv : (a : ℚ) / b = (a / b : ℕ) + x := by
    have hsum : ((a % b : ℕ) : ℚ) + b * (a / b : ℕ) = a := by exact_mod_cast Nat.mod_add_div a b
    rw [div_eq_iff hb'.ne', add_mul, hmod]
    linarith
  rw [hdiv, accuracyOfFraction]
  by_cases hzero : a % b = 0
  · rw [if_pos hzero, hx, hzero, Nat.cast_zero, zero_div, add_zero]
    exact stands_exact _
  have hpos : 0 < x := hx ▸ div_pos (Nat.cast_pos.2 (Nat.pos_of_ne_zero hzero)) hb'
  rw [if_neg hzero]
  cases hc : compare (2 * (a % b)) b with
  | lt =>
    have hhalf : 2 * ((a % b : ℕ) : ℚ) < b := by exact_mod_cast Nat.compare_eq_lt.1 hc
    have hx : x < 1 / 2 := by nlinarith
    exact ⟨by linarith, by linarith⟩
  | eq =>
    have hhalf : 2 * ((a % b : ℕ) : ℚ) = b := by exact_mod_cast Nat.compare_eq_eq.1 hc
    have hx : x = 1 / 2 := by
      rw [hx, div_eq_iff hb'.ne']
      linarith
    exact congrArg _ hx
  | gt =>
    have hhalf : (b : ℚ) < 2 * (a % b : ℕ) := by exact_mod_cast Nat.compare_eq_gt.1 hc
    have hx : 1 / 2 < x := by nlinarith
    have hx' : x < 1 := by nlinarith
    exact ⟨by linarith, by linarith⟩

/-! ## nearest numbers -/

/-- a fraction with a mantissa of 53 bits -/
def IsShort (v : ℚ) : Prop := ∃ (m : ℕ) (e : ℤ), m < 2 ^ 53 ∧ v = m * 2 ^ e

/-- no fraction with a mantissa of 53 bits is nearer to `x` -/
def IsNearest (x v : ℚ) : Prop := IsShort v ∧ ∀ w, IsShort w → |v - x| ≤ |w - x|

/-- what is nearest to a smaller value is not larger -/
theorem IsNearest.le {x y v w : ℚ} (hv : IsNearest x v) (hw : IsNearest y w) (hxy : x < y) :
    v ≤ w := by
  by_contra hwv
  rw [not_le] at hwv
  -- `x` lies above the middle of the two, and `y` below it
  have hx : (v - x) ^ 2 ≤ (w - x) ^ 2 := sq_le_sq.2 (hv.2 w hw.1)
  have hy : (w - y) ^ 2 ≤ (v - y) ^ 2 := sq_le_sq.2 (hw.2 v hv.1)
  have hmiddle : v + w ≤ 2 * x := by nlinarith
  have hmiddle' : 2 * y ≤ v + w := by nlinarith
  linarith

/-- the nearest whole number is nearer than every other one -/
theorem abs_sub_le_of_half {z : ℚ} {r : ℤ} (h : |(r : ℚ) - z| ≤ 1 / 2) (c : ℤ) :
    |(r : ℚ) - z| ≤ |(c : ℚ) - z| := by
  by_cases hc : c = r
  · rw [hc]
  have hone : (1 : ℚ) ≤ |(c : ℚ) - r| := by exact_mod_cast Int.one_le_abs (sub_ne_zero.2 hc)
  have hsum := abs_sub_le (c : ℚ) z r
  rw [abs_sub_comm z] at hsum
  linarith

/-- A whole number of full length and what is left behind it are rounded to the nearest whole
number, which is one of the nearest fractions of any kind. -/
theorem isNearest_scaled {z : ℚ} {r : ℕ} (h : |(r : ℚ) - z| ≤ 1 / 2) (hz : 2 ^ 52 ≤ z)
    (hr : r ≤ 2 ^ 53) (e : ℤ) : IsNearest (z * 2 ^ e) (r * 2 ^ e) := by
  have hpos (k : ℤ) : (0 : ℚ) < 2 ^ k := zpow_pos two_pos k
  have hscale (c : ℚ) : |c * 2 ^ e - z * 2 ^ e| = |c - z| * 2 ^ e := by
    rw [← sub_mul, abs_mul, abs_of_pos (hpos e)]
  refine ⟨?_, ?_⟩
  · rcases hr.lt_or_eq with hr | rfl
    · exact ⟨r, e, hr, rfl⟩
    · refine ⟨2 ^ 52, e + 1, by decide, ?_⟩
      rw [zpow_add₀ two_ne_zero]
      norm_num
      ring
  rintro w ⟨m, f, hm, rfl⟩
  rw [hscale]
  rcases le_or_gt e f with hef | hef
  · -- a whole number in units of the last place
    obtain ⟨d, rfl⟩ := Int.le.dest hef
    have hwhole : (m : ℚ) * 2 ^ (e + d) = ((m * 2 ^ d : ℤ) : ℚ) * 2 ^ e := by
      rw [zpow_add₀ two_ne_zero, zpow_natCast]
      push_cast
      ring
    rw [hwhole, hscale]
    refine mul_le_mul_of_nonneg_right ?_ (hpos e).le
    exact_mod_cast abs_sub_le_of_half (r := r) (by exact_mod_cast h) (m * 2 ^ d)
  · -- no larger than the smallest whole number of full length, which does not exceed `z`
    have hsmall : (m : ℚ) * 2 ^ f ≤ 2 ^ 52 * 2 ^ e := by
      have hstep : (2 : ℚ) ^ f * 2 ≤ 2 ^ e := by
        rw [← zpow_add_one₀ two_ne_zero]
        exact zpow_le_zpow_right₀ one_le_two hef
      have hm : (m : ℚ) ≤ 2 ^ 53 := by exact_mod_cast hm.le
      nlinarith [hpos f]
    have hhalf : |(r : ℚ) - z| ≤ z - 2 ^ 52 := by
      refine (abs_sub_le_of_half (r := r) (by exact_mod_cast h) (2 ^ 52)).trans_eq ?_
      rw [Int.cast_pow, Int.cast_ofNat, abs_sub_comm]
      exact abs_of_nonneg (sub_nonneg.2 hz)
    have hle : |(r : ℚ) - z| * 2 ^ e ≤ (z - 2 ^ 52) * 2 ^ e :=
      mul_le_mul_of_nonneg_right hhalf (hpos e).le
    refine hle.trans (le_trans ?_ (neg_le_abs _))
    linarith

/-! ## rounding -/

/-- the number is the fraction, positive and with a mantissa of full length -/
inductive IsNormal (low high : ℤ) : ℚ → Float.Model.UnpackedFloat → Prop
  | finite {m : ℕ} {e : ℤ} {hm : 0 < m} (hmin : 2 ^ 52 ≤ m) (hmax : m < 2 ^ 53) (hlow : low ≤ e)
      (hhigh : e ≤ high) : IsNormal low high (m * 2 ^ e) (.finite .positive m e hm)

section
variable {low high low' high' : ℤ} {v w x : ℚ} {u : Float.Model.UnpackedFloat}

theorem IsNormal.mono (h : IsNormal low high v u) (hlow : low' ≤ low) (hhigh : high ≤ high') :
    IsNormal low' high' v u := by
  cases h with
  | finite hmin hmax hl hh => exact .finite hmin hmax (hlow.trans hl) (hh.trans hhigh)

theorem IsNormal.unpack_pack (h : IsNormal low high v u) (hlow : -1074 ≤ low) (hhigh : high ≤ 971) :
    IsNormal low high v (unpack Format.binary64 (pack Format.binary64 u)) := by
  cases h with
  | finite hmin hmax hl hh =>
    rw [unpack_pack_of_full hmin hmax (hlow.trans hl) (hh.trans hhigh)]
    exact .finite hmin hmax hl hh

/-- a fraction with bits enough is rounded to one of the nearest numbers -/
theorem exists_isNormal_round (low high : ℤ) {m : Nat} {e : Int} {a : Accuracy}
    (hm : 2 ^ 52 ≤ m) (hlow : low + 53 ≤ totalExponent m e) (hhigh : totalExponent m e ≤ high + 52)
    (hmin : -1074 ≤ low) (hx : Stands (.ofMantissaAndAccuracy m a) (x / 2 ^ e)) :
    ∃ v, IsNormal low high v (roundWithAccuracy Format.binary64 .positive m e a) ∧
      IsNearest x v := by
  obtain ⟨k, j, m', h, hk, hround, hmin', hmax', hj, hr⟩ :=
    exists_full_mantissa (e := e) .positive a hm (by omega)
  have hcut : (ExtendedMantissa.ofMantissaAndAccuracy m a >>> k).mantissa = m / 2 ^ k := by
    rw [mantissa_shiftRight, mantissa_ofMantissaAndAccuracy]
  have hstands := hx.shiftRight k
  have hbelow := hstands.mantissa_le
  have habove := (roundedMantissa_bounds (ExtendedMantissa.ofMantissaAndAccuracy m a >>> k)).2
  rw [hcut] at hbelow habove
  have hfull : 2 ^ 52 ≤ m / 2 ^ k ∧ m / 2 ^ k < 2 ^ 53 := by
    constructor
    · rw [Nat.le_div_iff_mul_le (Nat.two_pow_pos k), ← Nat.pow_add, ← hk]
      exact Nat.log2_self_le (by omega)
    · rw [Nat.div_lt_iff_lt_mul (Nat.two_pow_pos k), ← Nat.pow_add, Nat.add_right_comm 52 1, ← hk]
      exact Nat.lt_log2_self
  rw [totalExponent] at hlow hhigh
  refine ⟨m' * 2 ^ (e + k + j), ?_, ?_⟩
  · rw [hround]
    exact .finite hmin' hmax' (by omega) (by omega)
  -- the bits that were cut off count in units of the last place that is left
  have hscaled := isNearest_scaled hstands.abs_sub_le
    (le_trans (by exact_mod_cast hfull.1) hbelow) (habove.trans hfull.2) (e + k)
  have hvalue : x / 2 ^ e / 2 ^ k * 2 ^ (e + k) = x := by
    rw [zpow_add₀ two_ne_zero, zpow_natCast]
    field_simp
  have hshort : ((m' * 2 ^ j : ℕ) : ℚ) * 2 ^ (e + k) = m' * 2 ^ (e + k + j) := by
    rw [zpow_add₀ two_ne_zero (e + k), zpow_natCast]
    push_cast
    ring
  rwa [hvalue, hr, hshort] at hscaled

/-- a fraction with a short mantissa is rounded to itself -/
theorem IsNearest.eq_of_isShort (h : IsNearest x v) (hx : IsShort x) : v = x := by
  have hle := h.2 x hx
  rw [sub_self, abs_zero] at hle
  exact sub_eq_zero.1 (abs_eq_zero.1 (le_antisymm hle (abs_nonneg _)))

end

/-! ## counts -/

theorem div_two_zpow_neg (n k : ℕ) : (n : ℚ) / 2 ^ (-k : ℤ) = (n <<< k : ℕ) := by
  rw [zpow_neg, div_inv_eq_mul, zpow_natCast, Nat.shiftLeft_eq]
  push_cast
  rfl

/-- the exponent of a count of `d` bits -/
theorem exists_isNormal_ofNat {n d : Nat} (hpos : 0 < n) (hn : n < 2 ^ d) (hd : d ≤ 64) :
    ∃ v, IsNormal (-52) (d - 52) v (ofNat Format.binary64 n) ∧ IsNearest n v := by
  have hlog : n.log2 < d := (Nat.log2_lt hpos.ne').2 hn
  obtain ⟨k, hk⟩ : ∃ k, k = (0 - max (totalExponent n 0 - 53) (-1074)).toNat := ⟨_, rfl⟩
  have hround : ofNat Format.binary64 n =
      roundWithAccuracy Format.binary64 .positive (n <<< k) (0 - k) .exact := by
    have hcompare : compare (n : ℤ) 0 = .gt := Int.compare_eq_gt.2 (by omega)
    rw [hk, ofNat, ofInt, Float.Model.UnpackedFloat.normalize, hcompare]
    rfl
  rw [totalExponent] at hk
  have hbelow : 2 ^ (n.log2 + k) ≤ n <<< k := by
    rw [Nat.shiftLeft_eq, Nat.pow_add]
    exact Nat.mul_le_mul_right _ (Nat.log2_self_le hpos.ne')
  have hhigh := totalExponent_le (shiftLeft_lt_two_pow (Nat.lt_log2_self (n := n)) k) (0 - k)
  have hlow := le_totalExponent hbelow (0 - k)
  have hfull : 2 ^ 52 ≤ n <<< k :=
    le_trans (Nat.pow_le_pow_right two_pos (by omega)) hbelow
  rw [hround]
  refine exists_isNormal_round _ _ hfull (by omega) (by omega) (by decide) ?_
  rw [zero_sub, div_two_zpow_neg]
  exact stands_exact _

/-- a product with one is rounded to the other factor -/
theorem IsNormal.mul_one {low high : ℤ} {v : ℚ} {x : Float}
    (h : IsNormal low high v x.toModel.unpack) (hlow : -1074 ≤ low) (hhigh : high + 1 ≤ 971) :
    IsNormal low (high + 1) v (x * Float.ofBits 0x3FF0000000000000).toModel.unpack := by
  rw [unpack_mul, unpack_one]
  refine IsNormal.unpack_pack ?_ hlow hhigh
  generalize x.toModel.unpack = u at h
  cases h with
  | @finite m e hm hmin hmax hl hh =>
    have hfull : 2 ^ (52 + 52) ≤ m * 2 ^ 52 := by omega
    have hlt : m * 2 ^ 52 < 2 ^ (53 + 52) := by omega
    have hbelow := le_totalExponent hfull (e + -52)
    have habove := totalExponent_le hlt (e + -52)
    have hstands : Stands (.ofMantissaAndAccuracy (m * 2 ^ 52) .exact)
        ((m * 2 ^ e : ℚ) / 2 ^ (e + -52)) := by
      have hscaled : (m * 2 ^ e : ℚ) / 2 ^ (e + -52) = (m * 2 ^ 52 : ℕ) := by
        rw [mul_div_assoc, ← zpow_sub₀ two_ne_zero]
        push_cast
        norm_num
      rw [hscaled]
      exact stands_exact _
    obtain ⟨v, hv, hnearest⟩ := exists_isNormal_round low (high + 1) (m := m * 2 ^ 52)
      (by omega) (by omega) (by omega) hlow hstands
    rw [hnearest.eq_of_isShort ⟨m, e, hmax, rfl⟩] at hv
    exact hv

/-- a count is rounded to one of the nearest numbers -/
theorem isNormal_ofNat {n : Nat} (hpos : 0 < n) (hn : n < 2 ^ 64) :
    ∃ v, IsNormal (-52) 12 v (Float.ofNat n).toModel.unpack ∧ IsNearest n v := by
  show ∃ v, IsNormal (-52) 12 v (Float.ofScientific n false 0).toModel.unpack ∧ IsNearest n v
  by_cases hsmall : n < 2 ^ 53
  · have hcount : Float.ofScientific n false 0 =
        n.toUInt64.toFloat * Float.ofBits 0x3FF0000000000000 := by
      rw [Float.ofScientific, dif_pos ⟨hsmall, by decide⟩]
      rfl
    obtain ⟨v, hv, hnearest⟩ := exists_isNormal_ofNat hpos hsmall (by decide)
    have hv : IsNormal (-52) 1 v n.toUInt64.toFloat.toModel.unpack := by
      have hn : n.toUInt64.toNat = n := Nat.mod_eq_of_lt hn
      rw [unpack_toFloat, hn]
      exact hv.unpack_pack (by decide) (by decide)
    rw [hcount]
    exact ⟨v, (hv.mul_one (by decide) (by decide)).mono le_rfl (by decide), hnearest⟩
  · rw [Float.ofScientific, dif_neg fun h => hsmall h.1]
    show ∃ v, IsNormal (-52) 12 v (unpack Format.binary64 (pack Format.binary64
      (ofScientific Format.binary64 n 0))) ∧ IsNearest n v
    have hround : ofScientific Format.binary64 n 0 =
        roundWithAccuracy Format.binary64 .positive (n <<< 53) (-53) .exact := by
      have hexponent : ¬ (0 : Int) < -((2 : Int) ^ 11 + n.log2) := by omega
      rw [ofScientific, dif_neg (by omega), if_neg (by decide), if_neg hexponent,
        if_pos (by decide)]
      show roundWithAccuracy Format.binary64 .positive (n <<< 53 * 1) (-53) .exact = _
      rw [Nat.mul_one]
    have hlt : n <<< 53 < 2 ^ (64 + 53) := shiftLeft_lt_two_pow hn 53
    have hbelow : 2 ^ (53 + 53) ≤ n <<< 53 := by
      rw [Nat.shiftLeft_eq]
      omega
    have hstands : Stands (.ofMantissaAndAccuracy (n <<< 53) .exact)
        (n / 2 ^ (-(53 : ℕ) : ℤ) : ℚ) := by
      rw [div_two_zpow_neg]
      exact stands_exact _
    have hlow := le_totalExponent hbelow (-53)
    have hhigh := totalExponent_le hlt (-53)
    obtain ⟨v, hv, hnearest⟩ := exists_isNormal_round (-52) 12 (e := -53)
      (le_trans (by decide) hbelow) (by omega) (by omega) (by decide) hstands
    rw [hround]
    exact ⟨v, hv.unpack_pack (by decide) (by decide), hnearest⟩

/-! ## quotients -/

section
variable {low high low' high' : ℤ} {v w : ℚ} {x y : Float}

/-- a quotient is rounded to one of the nearest numbers -/
theorem IsNormal.div (hx : IsNormal low high v x.toModel.unpack)
    (hy : IsNormal low' high' w y.toModel.unpack) (hlow : -1074 ≤ low - high' - 53)
    (hhigh : high - low' - 51 ≤ 971) :
    ∃ z, IsNormal (low - high' - 53) (high - low' - 51) z (x / y).toModel.unpack ∧
      IsNearest (v / w) z := by
  rw [unpack_div]
  generalize x.toModel.unpack = s at hx
  generalize y.toModel.unpack = t at hy
  cases hx with
  | @finite m₁ e₁ h₁ hmin₁ hmax₁ hl₁ hh₁ =>
  cases hy with
  | @finite m₂ e₂ h₂ hmin₂ hmax₂ hl₂ hh₂ =>
  obtain ⟨e, he⟩ : ∃ e, e = e₁ - e₂ - 53 := ⟨_, rfl⟩
  obtain ⟨a, ha⟩ : ∃ a, a = m₁ <<< 53 := ⟨_, rfl⟩
  have hcore : divCore Format.binary64 m₁ e₁ m₂ e₂ =
      (a / m₂, e, accuracyOfFraction (a % m₂) m₂) := by
    have hlog₁ : m₁.log2 = 52 := (Nat.log2_eq_iff (by omega)).2 ⟨hmin₁, hmax₁⟩
    have hlog₂ : m₂.log2 = 52 := (Nat.log2_eq_iff (by omega)).2 ⟨hmin₂, hmax₂⟩
    have htarget : min (e₁ - e₂)
        (Format.binary64.targetExponent (totalExponent m₁ e₁ - totalExponent m₂ e₂)) = e := by
      rw [targetExponent_eq, totalExponent, totalExponent, hlog₁, hlog₂]
      omega
    have hshift : (e₁ - e₂ - e).toNat = 53 := by omega
    rw [divCore, htarget, hshift, ha]
  rw [Nat.shiftLeft_eq] at ha
  have hbelow : 2 ^ 52 ≤ a / m₂ := by
    rw [Nat.le_div_iff_mul_le h₂]
    omega
  have habove : a / m₂ < 2 ^ 54 := by
    rw [Nat.div_lt_iff_lt_mul h₂]
    omega
  have hl := le_totalExponent hbelow e
  have hh := totalExponent_le habove e
  have hvalue : (a / m₂ : ℚ) = m₁ * 2 ^ e₁ / (m₂ * 2 ^ e₂) / 2 ^ e := by
    have hsplit : (2 : ℚ) ^ e₁ = 2 ^ e₂ * 2 ^ e * 2 ^ 53 := by
      rw [← zpow_natCast, ← zpow_add₀ two_ne_zero, ← zpow_add₀ two_ne_zero, he]
      congr 1
      omega
    have hm₂ : (m₂ : ℚ) ≠ 0 := Nat.cast_ne_zero.2 h₂.ne'
    rw [hsplit, ha, Nat.cast_mul, Nat.cast_pow, Nat.cast_two]
    field_simp
  obtain ⟨z, hz, hnearest⟩ := exists_isNormal_round (low - high' - 53) (high - low' - 51)
    hbelow (by omega) (by omega) hlow (hvalue ▸ stands_div a h₂)
  refine ⟨z, IsNormal.unpack_pack ?_ hlow hhigh, hnearest⟩
  show IsNormal _ _ z (roundWithAccuracy Format.binary64 (.positive / .positive)
    (divCore Format.binary64 m₁ e₁ m₂ e₂).1 (divCore Format.binary64 m₁ e₁ m₂ e₂).2.1
    (divCore Format.binary64 m₁ e₁ m₂ e₂).2.2)
  rw [hcore]
  exact hz

theorem two_pow_le_of_isNormal {m m' : ℕ} {e e' : ℤ} (hmin : 2 ^ 52 ≤ m) (hmax : m' < 2 ^ 53)
    (h : (m * 2 ^ e : ℚ) ≤ m' * 2 ^ e') : e ≤ e' := by
  by_contra hlt
  have hstep : (2 : ℚ) ^ e' * 2 ≤ 2 ^ e := by
    rw [← zpow_add_one₀ two_ne_zero]
    exact zpow_le_zpow_right₀ one_le_two (not_le.1 hlt)
  have hmin : (2 : ℚ) ^ 52 ≤ m := by exact_mod_cast hmin
  have hmax : (m' : ℚ) < 2 ^ 53 := by exact_mod_cast hmax
  have hpos : (0 : ℚ) < 2 ^ e' := zpow_pos two_pos e'
  nlinarith

/-- numbers of full length are in the order of their values -/
theorem IsNormal.le (hx : IsNormal low high v x.toModel.unpack)
    (hy : IsNormal low' high' w y.toModel.unpack) (h : v ≤ w) : x ≤ y := by
  rw [FloatOrder.le_iff]
  show ∃ p ∈ FloatOrder.place? x.toModel.unpack, ∃ q ∈ FloatOrder.place? y.toModel.unpack, p ≤ q
  generalize x.toModel.unpack = s at hx
  generalize y.toModel.unpack = t at hy
  cases hx with
  | @finite m e _ hmin hmax _ _ =>
  cases hy with
  | @finite m' e' _ hmin' hmax' _ _ =>
  refine ⟨_, rfl, _, rfl, ?_⟩
  rcases (two_pow_le_of_isNormal hmin hmax' h).lt_or_eq with hlt | rfl
  · exact Prod.Lex.toLex_le_toLex.2 (.inr ⟨rfl, Prod.Lex.toLex_le_toLex.2 (.inl hlt)⟩)
  · have hm : m ≤ m' := by exact_mod_cast le_of_mul_le_mul_right h (zpow_pos two_pos e)
    have hm : (m : ℤ) ≤ m' := by exact_mod_cast hm
    exact Prod.Lex.toLex_le_toLex.2 (.inr ⟨rfl, Prod.Lex.toLex_le_toLex.2 (.inr ⟨rfl, hm⟩)⟩)

/-- a fraction has one mantissa of full length -/
theorem IsNormal.unique {u u' : Float.Model.UnpackedFloat} (h : IsNormal low high v u)
    (h' : IsNormal low' high' v u') : u = u' := by
  generalize hw : v = w at h'
  cases h with
  | @finite m e _ hmin hmax _ _ =>
  cases h' with
  | @finite m' e' _ hmin' hmax' _ _ =>
  obtain rfl := le_antisymm (two_pow_le_of_isNormal hmin hmax' hw.le)
    (two_pow_le_of_isNormal hmin' hmax hw.ge)
  have hm : (m : ℚ) = m' := mul_right_cancel₀ (zpow_pos two_pos e).ne' hw
  obtain rfl : m = m' := by exact_mod_cast hm
  rfl

theorem IsNormal.pos {u : Float.Model.UnpackedFloat} (h : IsNormal low high v u) : 0 < v := by
  cases h with
  | @finite m e hm _ _ _ _ => exact mul_pos (Nat.cast_pos.2 hm) (zpow_pos two_pos e)

theorem place_zero_div (hy : IsNormal low high w y.toModel.unpack) :
    FloatOrder.placeOf? (Float.ofNat 0 / y) = some (FloatOrder.place 0 0 0) := by
  have hzero : (Float.ofNat 0).toModel.unpack = .zero .positive := by rfl
  rw [FloatOrder.placeOf?, unpack_div, hzero]
  generalize y.toModel.unpack = t at hy
  cases hy with
  | finite =>
    show FloatOrder.place? (unpack Format.binary64 (pack Format.binary64 (.zero .positive))) = _
    decide +kernel

/-- a positive number is larger than zero -/
theorem IsNormal.zero_le (hx : IsNormal low high v x.toModel.unpack) : 0 ≤ x := by
  rw [FloatOrder.le_iff]
  show ∃ p ∈ FloatOrder.placeOf? 0, ∃ q ∈ FloatOrder.place? x.toModel.unpack, p ≤ q
  generalize x.toModel.unpack = t at hx
  cases hx with
  | finite => exact ⟨_, rfl, _, rfl, Prod.Lex.toLex_le_toLex.2 (.inl one_pos)⟩

/-- a count divided by a positive number is not negative -/
theorem zero_le_ofNat_div (hy : IsNormal low high w y.toModel.unpack) (hlow : -1010 ≤ low)
    (hhigh : high ≤ 969) {n : Nat} (hn : n < 2 ^ 64) : 0 ≤ Float.ofNat n / y := by
  rcases n.eq_zero_or_pos with rfl | hpos
  · exact FloatOrder.le_iff.2 ⟨_, rfl, _, place_zero_div hy, le_rfl⟩
  obtain ⟨v, hv, -⟩ := isNormal_ofNat hpos hn
  obtain ⟨z, hz, -⟩ := hv.div hy (by omega) (by omega)
  exact hz.zero_le

/-- **Of two counts divided by the same number the larger one does not give less.** -/
theorem ofNat_div_le (hy : IsNormal low high w y.toModel.unpack) (hlow : -1010 ≤ low)
    (hhigh : high ≤ 969) {a b : Nat} (hab : a ≤ b) (hb : b < 2 ^ 64) :
    Float.ofNat a / y ≤ Float.ofNat b / y := by
  rcases a.eq_zero_or_pos with rfl | hpos
  · have hnonneg := zero_le_ofNat_div hy hlow hhigh hb
    exact FloatOrder.le_trans (FloatOrder.le_iff.2 ⟨_, place_zero_div hy, _, rfl, le_rfl⟩) hnonneg
  obtain ⟨v, hv, hnearest⟩ := isNormal_ofNat hpos (hab.trans_lt hb)
  obtain ⟨v', hv', hnearest'⟩ := isNormal_ofNat (hpos.trans_le hab) hb
  obtain ⟨z, hz, hquotient⟩ := hv.div hy (by omega) (by omega)
  obtain ⟨z', hz', hquotient'⟩ := hv'.div hy (by omega) (by omega)
  rcases hab.eq_or_lt with rfl | hlt
  · exact hz.le hz le_rfl
  rcases (hnearest.le hnearest' (Nat.cast_lt.2 hlt)).lt_or_eq with hlt | rfl
  · exact hz.le hz' (hquotient.le hquotient' (div_lt_div_of_pos_right hlt hy.pos))
  · -- rounded to the same number, hence divided to the same
    have hsame : IsNormal (-52 - high - 53) (12 - low - 51) z'
        (Float.ofNat a / y).toModel.unpack := by
      rw [unpack_div, hv.unique hv', ← unpack_div]
      exact hz'
    exact hsame.le hz' le_rfl

end

end ContractAudit.FloatRounding
