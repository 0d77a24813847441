import ContractAudit.Proofs.FloatText

/-!
# The range of numbers that are read

A number that is read is a count of 64 bits, scaled by a power of ten.  The count is far from the
largest finite number, a product is checked, and division by powers of ten makes numbers smaller.

* `Decimal.IsBelow top u`: `u` is a zero, or finite with an exponent up to `top`.
* `Decimal.isBelow_roundWithAccuracy`: rounding moves the last bit up by at most one place.
* `Decimal.isBelow_unpack_pack`: packing a number that is small enough does not overflow.
* `Decimal.isBelow_mul`, `Decimal.isBelow_div`: products and quotients.
* `Decimal.isBelow_count`, `Decimal.isBelow_overTenTo`: the count, and the count divided.

The main statement is `Json.isFinite_of_float?`.
-/

namespace ContractAudit

namespace Decimal

open Float.Model (Format totalExponent)
open Float.Model.UnpackedFloat

/-- a zero, or a finite number with an exponent up to `top` -/
inductive IsBelow (top : Int) : Float.Model.UnpackedFloat → Prop
  | zero (s : Sign) : IsBelow top (.zero s)
  | finite {s : Sign} {m : Nat} {e : Int} {hm : 0 < m} (he : e ≤ top) :
      IsBelow top (.finite s m e hm)

theorem IsBelow.mono {a b : Int} (h : a ≤ b) {u : Float.Model.UnpackedFloat} (hu : IsBelow a u) :
    IsBelow b u := by
  cases hu with
  | zero s => exact .zero s
  | finite he => exact .finite (Int.le_trans he h)

theorem IsBelow.isFinite {top : Int} {u : Float.Model.UnpackedFloat} (h : IsBelow top u) :
    u.isFinite := by
  cases h with
  | zero s => rfl
  | finite he => rfl

theorem IsBelow.neg {top : Int} {u : Float.Model.UnpackedFloat} (h : IsBelow top u) :
    IsBelow top u.neg := by
  cases h with
  | zero s => exact .zero _
  | finite he => exact .finite he

/-! ## rounding -/

theorem mantissa_shiftRight (m : ExtendedMantissa) (k : Nat) :
    (m >>> k).mantissa = m.mantissa / 2 ^ k := by
  induction k with
  | zero => exact (Nat.div_one _).symm
  | succ k ih =>
    show (m >>> k).mantissa / 2 = _
    rw [ih, Nat.div_div_eq_div_mul, Nat.pow_succ]

theorem roundedMantissa_bounds (m : ExtendedMantissa) :
    m.mantissa ≤ m.roundedMantissa ∧ m.roundedMantissa ≤ m.mantissa + 1 := by
  rcases m with ⟨m, r, s⟩
  cases r <;> cases s
  · exact ⟨Nat.le_refl m, Nat.le_succ m⟩
  · exact ⟨Nat.le_refl m, Nat.le_succ m⟩
  · show m ≤ m + m % 2 ∧ m + m % 2 ≤ m + 1
    omega
  · exact ⟨Nat.le_succ m, Nat.le_refl _⟩

theorem mantissa_ofMantissaAndAccuracy (m : Nat) (a : Accuracy) :
    (ExtendedMantissa.ofMantissaAndAccuracy m a).mantissa = m := by
  cases a with
  | exact => rfl
  | inexact o => cases o <;> rfl

theorem targetExponent_eq (t : Int) : Format.binary64.targetExponent t = max (t - 53) (-1074) := rfl

theorem shiftLeft_lt_two_pow {m d : Nat} (h : m < 2 ^ d) (k : Nat) : m <<< k < 2 ^ (d + k) := by
  rw [Nat.shiftLeft_eq, Nat.pow_add]
  exact Nat.mul_lt_mul_of_pos_right h (Nat.pow_pos (by decide))

theorem lt_two_pow_of_totalExponent {m : Nat} {e : Int} {d : Nat} (h : totalExponent m e ≤ d + e) :
    m < 2 ^ d := by
  rw [totalExponent] at h
  exact Nat.lt_of_lt_of_le Nat.lt_log2_self (Nat.pow_le_pow_right (by decide) (by omega))

theorem totalExponent_le {m d : Nat} (h : m < 2 ^ d) (e : Int) :
    totalExponent m e ≤ max d 1 + e := by
  rw [totalExponent]
  by_cases hm : m = 0
  · subst hm
    rw [Nat.log2_zero]
    omega
  · have := (Nat.log2_lt hm).2 h
    omega

/-- rounding cuts off bits twice: to the length of a mantissa, and again if it is rounded up -/
theorem exists_roundWithAccuracy (s : Sign) (m : Nat) (e : Int) (a : Accuracy) :
    ∃ k r j : Nat, k = (max (totalExponent m e - 53) (-1074) - e).toNat ∧
      r = (ExtendedMantissa.ofMantissaAndAccuracy m a >>> k).roundedMantissa ∧
      m / 2 ^ k ≤ r ∧ r ≤ m / 2 ^ k + 1 ∧
      j = (max (totalExponent r (e + k) - 53) (-1074) - (e + k)).toNat ∧
      roundWithAccuracy Format.binary64 s m e a =
        if h : r / 2 ^ j = 0 then .zero s
        else .finite s (r / 2 ^ j) (e + k + j) (Nat.pos_of_ne_zero h) := by
  obtain ⟨k, hk⟩ : ∃ k, k = (max (totalExponent m e - 53) (-1074) - e).toNat := ⟨_, rfl⟩
  obtain ⟨first, hfirst⟩ : ∃ first, first = ExtendedMantissa.ofMantissaAndAccuracy m a >>> k :=
    ⟨_, rfl⟩
  have hmantissa : first.mantissa = m / 2 ^ k := by
    rw [hfirst, mantissa_shiftRight, mantissa_ofMantissaAndAccuracy]
  have hrounded := roundedMantissa_bounds first
  rw [hmantissa] at hrounded
  refine ⟨k, first.roundedMantissa, _, hk, by rw [hfirst], hrounded.1, hrounded.2, rfl, ?_⟩
  have hshift : shiftToTargetExponent Format.binary64 m e a = (first, e + k) := by
    rw [hfirst, hk]
    rfl
  rw [roundWithAccuracy, hshift]
  simp only [shiftToTargetExponent, shiftToExponent, mantissa_shiftRight,
    mantissa_ofMantissaAndAccuracy, targetExponent_eq]

/-- rounding moves the last bit up by at most one place -/
theorem isBelow_roundWithAccuracy {top : Int} (htop : -1074 ≤ top) (s : Sign) {m : Nat} {e : Int}
    (a : Accuracy) (he : e ≤ top) (ht : totalExponent m e ≤ top + 52) :
    IsBelow top (roundWithAccuracy Format.binary64 s m e a) := by
  obtain ⟨k, r, j, hk, -, -, hr, hj, hround⟩ := exists_roundWithAccuracy s m e a
  obtain ⟨d, hd⟩ : ∃ d : Nat, (d : Int) = top + 52 - (e + k) :=
    ⟨(top + 52 - (e + k)).toNat, by omega⟩
  have hlt : r < 2 ^ (d + 1) := by
    have hm : m < 2 ^ (d + k) := lt_two_pow_of_totalExponent (e := e) (by omega)
    have hdiv : m / 2 ^ k < 2 ^ d := by
      rw [Nat.pow_add] at hm
      exact Nat.div_lt_of_lt_mul (by rwa [Nat.mul_comm])
    have hpos : 0 < 2 ^ d := Nat.pow_pos (by decide)
    rw [Nat.pow_succ]
    omega
  have htotal := totalExponent_le hlt (e + k)
  rw [hround]
  split
  · exact .zero s
  · exact .finite (by omega)

theorem isBelow_mul {top : Int} (htop : -1074 ≤ top) {s₁ s₂ : Sign} {m₁ m₂ : Nat}
    {e₁ e₂ : Int} {h₁ : 0 < m₁} {h₂ : 0 < m₂} (he : e₁ + e₂ ≤ top)
    (ht : totalExponent m₁ e₁ + totalExponent m₂ e₂ ≤ top + 52) :
    IsBelow top (mul Format.binary64 (.finite s₁ m₁ e₁ h₁) (.finite s₂ m₂ e₂ h₂)) := by
  refine isBelow_roundWithAccuracy htop _ _ he ?_
  obtain ⟨d₁, hd₁⟩ : ∃ d₁ : Nat, d₁ = m₁.log2 + 1 := ⟨_, rfl⟩
  obtain ⟨d₂, hd₂⟩ : ∃ d₂ : Nat, d₂ = m₂.log2 + 1 := ⟨_, rfl⟩
  have hlt : m₁ * m₂ < 2 ^ (d₁ + d₂) := by
    rw [Nat.pow_add, hd₁, hd₂]
    exact Nat.mul_lt_mul_of_lt_of_lt Nat.lt_log2_self Nat.lt_log2_self
  have h := totalExponent_le hlt (e₁ + e₂)
  rw [totalExponent, totalExponent] at ht
  omega

/-- a quotient by a number whose highest bit stands at `low` or above -/
theorem isBelow_div {top low : Int} (htop : -1074 ≤ top) {s₁ s₂ : Sign} {m₁ m₂ : Nat}
    {e₁ e₂ : Int} {h₁ : 0 < m₁} {h₂ : 0 < m₂} (hm : m₁ < 2 ^ 53) (he : e₁ + 2 ≤ top + low)
    (hlow : low ≤ totalExponent m₂ e₂) :
    IsBelow top (div Format.binary64 (.finite s₁ m₁ e₁ h₁) (.finite s₂ m₂ e₂ h₂)) := by
  obtain ⟨t, ht⟩ : ∃ t, t = totalExponent m₁ e₁ - totalExponent m₂ e₂ := ⟨_, rfl⟩
  have htotal : t ≤ top + 51 := by
    have h := totalExponent_le hm e₁
    omega
  obtain ⟨e, hedef⟩ : ∃ e, e = min (e₁ - e₂) (max (t - 53) (-1074)) := ⟨_, rfl⟩
  obtain ⟨k, hk⟩ : ∃ k, k = (e₁ - e₂ - e).toNat := ⟨_, rfl⟩
  have hcore : divCore Format.binary64 m₁ e₁ m₂ e₂ =
      ((m₁ <<< k) / m₂, e, accuracyOfFraction ((m₁ <<< k) % m₂) m₂) := by
    rw [hk, hedef, ht]
    rfl
  show IsBelow top (match divCore Format.binary64 m₁ e₁ m₂ e₂ with
    | (m, e, a) => roundWithAccuracy Format.binary64 (s₁ / s₂) m e a)
  rw [hcore]
  refine isBelow_roundWithAccuracy htop _ _ (by omega) ?_
  obtain ⟨d₁, hd₁⟩ : ∃ d₁ : Nat, d₁ = m₁.log2 + 1 := ⟨_, rfl⟩
  obtain ⟨d₂, hd₂⟩ : ∃ d₂ : Nat, d₂ = m₂.log2 := ⟨_, rfl⟩
  rw [totalExponent, totalExponent] at ht
  obtain ⟨d, hd⟩ : ∃ d : Nat, d = d₁ + k - d₂ := ⟨_, rfl⟩
  have hquot : m₁ <<< k / m₂ < 2 ^ d := by
    have hlow : 2 ^ d₂ ≤ m₂ := hd₂ ▸ Nat.log2_self_le (Nat.ne_of_gt h₂)
    have hhigh : m₁ <<< k < 2 ^ (d₁ + k) := shiftLeft_lt_two_pow (hd₁ ▸ Nat.lt_log2_self) k
    refine Nat.div_lt_of_lt_mul (Nat.lt_of_lt_of_le hhigh ?_)
    calc 2 ^ (d₁ + k) ≤ 2 ^ (d₂ + d) := Nat.pow_le_pow_right (by decide) (by omega)
      _ = 2 ^ d₂ * 2 ^ d := Nat.pow_add _ _ _
      _ ≤ m₂ * 2 ^ d := Nat.mul_le_mul_right _ hlow
  have h := totalExponent_le hquot e
  omega

/-! ## packing -/

theorem isBelow_unpack_packComponents {top : Int} (htop : -1074 ≤ top) {s : Sign} {e : BitVec 11}
    {m : BitVec 52} (he : e.toNat < 2047) (h : (e.toNat : Int) - 1075 ≤ top) :
    IsBelow top (unpack Format.binary64 (packComponents Format.binary64 s e m)) := by
  have hexponent : @unpackExponent Format.binary64 (packComponents Format.binary64 s e m) = e :=
    unpackExponent_packComponents
  rw [unpack]
  show IsBelow top (if @unpackExponent Format.binary64 (packComponents Format.binary64 s e m) =
    -1#_ then _ else _)
  rw [hexponent, if_neg]
  · split
    · rename_i hzero
      split
      · exact .zero _
      · refine .finite ?_
        rw [hzero]
        exact htop
    · exact .finite h
  · intro hone
    rw [hone] at he
    exact absurd he (by decide)

/-- packing a number that is small enough does not overflow -/
theorem isBelow_unpack_pack {top : Int} (htop : -1074 ≤ top) (hmax : top ≤ 971)
    {u : Float.Model.UnpackedFloat} (hu : IsBelow top u) :
    IsBelow top (unpack Format.binary64 (pack Format.binary64 u)) := by
  cases hu with
  | zero s => exact isBelow_unpack_packComponents htop (by decide) (Int.le_trans (by decide) htop)
  | @finite s m e hm hu =>
    rw [pack]
    split
    · rename_i hover
      change 2 ^ 11 ≤ (e + 1023 + 52).toNat + 1 at hover
      omega
    split
    · have hmod : (BitVec.ofNat 11 (e + 1023 + 52).toNat).toNat = (e + 1023 + 52).toNat := by
        rw [BitVec.toNat_ofNat]
        omega
      refine isBelow_unpack_packComponents htop ?_ ?_
      · show (BitVec.ofNat 11 (e + 1023 + 52).toNat).toNat < 2047
        omega
      · show ((BitVec.ofNat 11 (e + 1023 + 52).toNat).toNat : Int) - 1075 ≤ top
        omega
    · exact isBelow_unpack_packComponents htop (by decide) (Int.le_trans (by decide) htop)

theorem isBelow_of_isFinite {b : BitVec 64} (h : (unpack Format.binary64 b).isFinite) :
    IsBelow 971 (unpack Format.binary64 b) := by
  have hlt : (@unpackExponent Format.binary64 b).toNat < 2 ^ 11 := BitVec.isLt _
  rw [unpack] at h ⊢
  split
  · rename_i hone
    rw [if_pos hone] at h
    split at h <;> cases h
  · rename_i hone
    split
    · rename_i hzero
      split
      · exact .zero _
      · refine .finite ?_
        rw [hzero]
        decide
    · have hne : (@unpackExponent Format.binary64 b).toNat ≠ 2047 := fun h =>
        hone (BitVec.eq_of_toNat_eq h)
      refine .finite ?_
      show ((@unpackExponent Format.binary64 b).toNat : Int) - (1023 + 52 : Nat) ≤ 971
      omega

/-! ## counts -/

theorem isBelow_round {top : Int} (htop : -1074 ≤ top) (s : Sign) {m : Nat} {e : Int}
    (he : e ≤ top) (ht : totalExponent m e ≤ top + 52) :
    IsBelow top (round Format.binary64 s m e) := by
  obtain ⟨k, hk⟩ : ∃ k, k = (e - max (totalExponent m e - 53) (-1074)).toNat := ⟨_, rfl⟩
  have hround : round Format.binary64 s m e =
      roundWithAccuracy Format.binary64 s (m <<< k) (e - k) .exact := by
    rw [hk]
    rfl
  have hshift : m <<< k < 2 ^ (m.log2 + 1 + k) := shiftLeft_lt_two_pow Nat.lt_log2_self k
  have h := totalExponent_le hshift (e - k)
  rw [totalExponent] at ht
  rw [hround]
  exact isBelow_roundWithAccuracy htop s _ (by omega) (by omega)

theorem isBelow_ofNat {n : Nat} (hn : n < 2 ^ 64) : IsBelow 12 (ofNat Format.binary64 n) := by
  have ht := totalExponent_le (m := (n : Int).toNat) hn 0
  rw [ofNat, ofInt, Float.Model.UnpackedFloat.normalize]
  split
  · rename_i hneg
    exact absurd (Int.compare_eq_lt.1 hneg) (by omega)
  · exact .zero _
  · exact isBelow_round (by decide) _ (by decide) (by omega)

/-! ## operations -/

theorem unpack_mul (x y : Float) : (x * y).toModel.unpack =
    unpack Format.binary64 (pack Format.binary64
      (mul Format.binary64 x.toModel.unpack y.toModel.unpack)) := rfl

theorem unpack_div (x y : Float) : (x / y).toModel.unpack =
    unpack Format.binary64 (pack Format.binary64
      (div Format.binary64 x.toModel.unpack y.toModel.unpack)) := rfl

theorem unpack_toFloat (n : UInt64) : n.toFloat.toModel.unpack =
    unpack Format.binary64 (pack Format.binary64 (ofNat Format.binary64 n.toNat)) := rfl

theorem unpack_one : (Float.ofBits 0x3FF0000000000000).toModel.unpack =
    .finite .positive (2 ^ 52) (-52) (by decide) := rfl

theorem lt_of_unpack {x : Float} {s : Sign} {m : Nat} {e : Int} {hm : 0 < m}
    (h : x.toModel.unpack = .finite s m e hm) : m < 2 ^ 53 := (bounds_of_unpack h).1

theorem isBelow_mul_one {top : Int} (htop : -1074 ≤ top) (hmax : top + 2 ≤ 971) {x : Float}
    (hx : IsBelow top x.toModel.unpack) :
    IsBelow (top + 2) (x * Float.ofBits 0x3FF0000000000000).toModel.unpack := by
  rw [unpack_mul, unpack_one]
  refine isBelow_unpack_pack (by omega) hmax ?_
  generalize hu : x.toModel.unpack = u at hx
  cases hx with
  | zero s => exact .zero _
  | @finite s m e hm he =>
    have ht := totalExponent_le (lt_of_unpack hu) e
    have hone : totalExponent (2 ^ 52) (-52) = 1 := by decide
    exact isBelow_mul (by omega) (by omega) (by omega)

theorem isBelow_count {n : Nat} (hn : n ≤ maxCount) :
    IsBelow 14 (Scientific.toFloat ⟨n, 0⟩).toModel.unpack := by
  have hlt : n < 2 ^ 64 := Nat.lt_of_le_of_lt hn (by decide)
  show IsBelow 14 (Float.ofScientific n false 0).toModel.unpack
  by_cases hsmall : n < 2 ^ 53
  · have hcount : Float.ofScientific n false 0 =
        n.toUInt64.toFloat * Float.ofBits 0x3FF0000000000000 := by
      rw [Float.ofScientific, dif_pos ⟨hsmall, by decide⟩]
      rfl
    have h : IsBelow 12 n.toUInt64.toFloat.toModel.unpack := by
      rw [unpack_toFloat]
      exact isBelow_unpack_pack (by decide) (by decide) (isBelow_ofNat n.toUInt64.toNat_lt)
    rw [hcount]
    exact isBelow_mul_one (by decide) (by decide) h
  · rw [Float.ofScientific, dif_neg fun h => hsmall h.1]
    show IsBelow 14 (unpack Format.binary64 (pack Format.binary64
      (ofScientific Format.binary64 n 0)))
    refine isBelow_unpack_pack (by decide) (by decide) ?_
    have hexponent : ¬ (0 : Int) < -((2 : Int) ^ 11 + n.log2) := by omega
    rw [ofScientific, dif_neg (by omega), if_neg (by decide), if_neg hexponent,
      if_pos (by decide)]
    have hshift : n <<< 53 < 2 ^ (64 + 53) := shiftLeft_lt_two_pow hlt 53
    have hpos : 0 < n <<< 53 := Nat.shiftLeft_pos_iff.2 (by omega)
    have hm := totalExponent_le hshift (-53)
    have hone : totalExponent 1 0 = 1 := by decide
    have ht : totalExponent (n <<< 53) (-53) + totalExponent 1 0 ≤ 14 + 52 := by
      rw [hone]
      omega
    exact @isBelow_mul 14 (by decide) .positive .positive (n <<< 53) 1 (-53) 0 hpos (by decide)
      (by decide) ht

theorem countWithin_le {n : Nat} (ds : List Char) (hn : n ≤ maxCount) :
    (countWithin n ds).1 ≤ maxCount := by
  induction ds generalizing n with
  | nil => exact hn
  | cons c ds ih =>
    rw [countWithin]
    by_cases h : n * 10 + Text.ofDigits [c] ≤ maxCount
    · rw [if_pos h]
      exact ih h
    · rw [if_neg h]
      exact hn

theorem digits_ofWritten_le (front fraction : List Char) (exponent : Int) :
    (Scientific.ofWritten front fraction exponent).digits ≤ maxCount :=
  countWithin_le fraction (countWithin_le front (Nat.zero_le _))

/-! ## powers of ten -/

/-- a finite number whose highest bit stands at `low` or above -/
inductive ReachesTo (low : Int) : Float.Model.UnpackedFloat → Prop
  | finite {s : Sign} {m : Nat} {e : Int} {hm : 0 < m} (h : low ≤ totalExponent m e) :
      ReachesTo low (.finite s m e hm)

instance (low : Int) : (u : Float.Model.UnpackedFloat) → Decidable (ReachesTo low u)
  | .finite _ m e _ =>
    if h : low ≤ totalExponent m e then .isTrue (.finite h) else .isFalse fun ⟨h'⟩ => h h'
  | .zero _ => .isFalse nofun
  | .infinity _ => .isFalse nofun
  | .notANumber => .isFalse nofun

theorem le_totalExponent {m d : Nat} (h : 2 ^ d ≤ m) (e : Int) : d + 1 + e ≤ totalExponent m e := by
  have hne : m ≠ 0 := Nat.ne_of_gt (Nat.lt_of_lt_of_le (Nat.pow_pos (by decide)) h)
  have hlog := (Nat.le_log2 hne).2 h
  rw [totalExponent]
  omega

/-- a number with bits enough is rounded to a mantissa of full length: the bits behind that length
are cut off, and one more if rounding up made the next power of two -/
theorem exists_full_mantissa (s : Sign) {m : Nat} {e : Int} (a : Accuracy) (hm : 2 ^ 52 ≤ m)
    (ht : -1021 ≤ totalExponent m e) :
    ∃ k j m' : Nat, ∃ h : 0 < m', m.log2 = 52 + k ∧
      roundWithAccuracy Format.binary64 s m e a = .finite s m' (e + k + j) h ∧
      2 ^ 52 ≤ m' ∧ m' < 2 ^ 53 ∧ j ≤ 1 ∧
      (ExtendedMantissa.ofMantissaAndAccuracy m a >>> k).roundedMantissa = m' * 2 ^ j := by
  obtain ⟨k, r, j, hk, hfirst, hlow, hhigh, hj, hround⟩ := exists_roundWithAccuracy s m e a
  have hne : m ≠ 0 := Nat.ne_of_gt (Nat.lt_of_lt_of_le (by decide) hm)
  have hlog := (Nat.le_log2 hne).2 hm
  rw [totalExponent] at hk ht
  have hk : m.log2 = 52 + k := by omega
  have hbelow : 2 ^ 52 ≤ m / 2 ^ k := by
    refine (Nat.le_div_iff_mul_le (Nat.pow_pos (by decide))).2 ?_
    rw [← Nat.pow_add, ← hk]
    exact Nat.log2_self_le hne
  have habove : m / 2 ^ k < 2 ^ 53 := by
    refine Nat.div_lt_of_lt_mul ?_
    rw [← Nat.pow_add, Nat.add_comm k 53, Nat.add_right_comm 52 1 k, ← hk]
    exact Nat.lt_log2_self
  rw [totalExponent] at hj
  by_cases hr : r < 2 ^ 53
  · have hlogr : r.log2 = 52 :=
      (Nat.log2_eq_iff (by omega)).2 ⟨Nat.le_trans hbelow hlow, hr⟩
    have hj : j = 0 := by omega
    subst hj
    have hdiv : r / 2 ^ 0 = r := Nat.div_one r
    rw [dif_neg (by omega)] at hround
    refine ⟨k, 0, _, _, hk, hround, by omega, by omega, Nat.zero_le 1, ?_⟩
    rw [← hfirst, hdiv, Nat.pow_zero, Nat.mul_one]
  · have hr : r = 2 ^ 53 := by omega
    subst hr
    rw [Nat.log2_two_pow] at hj
    have hj : j = 1 := by omega
    subst hj
    exact ⟨k, 1, _, _, hk, hround, by decide, by decide, le_refl 1, hfirst.symm⟩

/-- a number with a mantissa of full length is packed as it is -/
theorem unpack_pack_of_full {s : Sign} {m : Nat} {e : Int} {hm : 0 < m} (hmin : 2 ^ 52 ≤ m)
    (hmax : m < 2 ^ 53) (he : -1074 ≤ e) (htop : e ≤ 971) :
    unpack Format.binary64 (pack Format.binary64 (.finite s m e hm)) = .finite s m e hm := by
  have hlog : m.log2 = 52 := (Nat.log2_eq_iff (by omega)).2 ⟨hmin, hmax⟩
  have hover : ¬ 2 ^ 11 ≤ (e + 1023 + 52).toNat + 1 := by omega
  have hfull : m.log2 + 1 = 53 := by omega
  have hexponent : (BitVec.ofNat 11 (e + 1023 + 52).toNat).toNat = (e + 1023 + 52).toNat := by
    rw [BitVec.toNat_ofNat]
    omega
  have hmantissa : (BitVec.ofNat 52 m).toNat = m - 2 ^ 52 := by
    rw [BitVec.toNat_ofNat]
    omega
  have hpack : pack Format.binary64 (.finite s m e hm) = packComponents Format.binary64 s
      (BitVec.ofNat 11 (e + 1023 + 52).toNat) (BitVec.ofNat 52 m) := by
    rw [pack]
    exact (if_neg hover).trans (if_pos hfull)
  generalize BitVec.ofNat 11 (e + 1023 + 52).toNat = b at hexponent hpack
  generalize BitVec.ofNat 52 m = c at hmantissa hpack
  have hunpack : @unpackExponent Format.binary64 (packComponents Format.binary64 s b c) = b :=
    unpackExponent_packComponents
  have hunpack' : @unpackMantissa Format.binary64 (packComponents Format.binary64 s b c) = c :=
    unpackMantissa_packComponents
  have hsign : Sign.ofBitVec (@unpackSign Format.binary64 (packComponents Format.binary64 s b c)) =
      s := by
    rw [unpackSign_packComponents]
    cases s <;> rfl
  have hjoined : ((1#1 ++ c : BitVec (1 + 52))).toNat = m := by
    rw [BitVec.toNat_append, ← Nat.shiftLeft_add_eq_or_of_lt (BitVec.isLt _)]
    show 1 * 2 ^ 52 + c.toNat = m
    omega
  have hplace : (b.toNat : Int) - (1023 + 52 : Nat) = e := by omega
  rw [hpack, unpack]
  show (if @unpackExponent Format.binary64 (packComponents Format.binary64 s b c) = -1#_ then _
    else _) = _
  rw [hunpack, if_neg, if_neg]
  · have hsame {m' : Nat} {e' : Int} {h' : 0 < m'} (hm' : m' = m) (he' : e' = e) :
        Float.Model.UnpackedFloat.finite s m' e' h' = .finite s m e hm := by
      subst hm' he'
      rfl
    rw [hsign]
    refine hsame ?_ hplace
    rw [hunpack']
    exact hjoined
  · intro hzero
    rw [hzero] at hexponent
    change 0 = _ at hexponent
    omega
  · intro hone
    rw [hone] at hexponent
    change 2047 = _ at hexponent
    omega

theorem ReachesTo.mono {a b : Int} (h : b ≤ a) {u : Float.Model.UnpackedFloat}
    (hu : ReachesTo a u) : ReachesTo b u := by
  obtain ⟨hu⟩ := hu
  exact .finite (Int.le_trans h hu)

theorem reachesTo_tenTo_topPower : ReachesTo 2 (tenTo topPower).toModel.unpack := by
  decide +kernel

theorem reachesTo_tenTo {n : Nat} (hn : n ≤ topPower) : ReachesTo 1 (tenTo n).toModel.unpack := by
  -- powers below the 23rd are exact, and above it `2 ^ 53 * 10 ^ n` is rounded as a whole
  by_cases hsmall : n < 23
  · have h : ∀ n < 23, ReachesTo 1 (tenTo n).toModel.unpack := by decide +kernel
    exact h n hsmall
  by_cases hlast : n = topPower
  · rw [hlast]
    exact reachesTo_tenTo_topPower.mono (by decide)
  have hlt : n < 308 := Nat.lt_of_le_of_ne hn hlast
  have hpow : 10 ^ n < 2 ^ 1023 :=
    Nat.lt_of_le_of_lt (Nat.pow_le_pow_right (by decide) (Nat.le_of_lt_succ hlt))
      (by decide +kernel)
  have hpos : 0 < 10 ^ n := Nat.pow_pos (by decide)
  obtain ⟨m, hm⟩ : ∃ m, m = 2 ^ 53 * 10 ^ n := ⟨_, rfl⟩
  have hmin : 2 ^ 53 ≤ m := hm ▸ Nat.le_mul_of_pos_right _ hpos
  have hmax {d : Nat} (hd : 10 ^ n < 2 ^ d) : m < 2 ^ (53 + d) := by
    rw [hm, Nat.pow_add]
    exact Nat.mul_lt_mul_of_pos_left hd (by decide)
  have htotal := le_totalExponent hmin (-53)
  have hbelow := totalExponent_le (hmax hpow) (-53)
  have htop : IsBelow 971 (roundWithAccuracy Format.binary64 .positive m (-53) .exact) :=
    isBelow_roundWithAccuracy (by decide) _ _ (by decide) (by omega)
  obtain ⟨k, j, m', h, hk, hround, hmin', hmax', -, -⟩ := exists_full_mantissa (e := -53)
    .positive .exact (Nat.le_trans (by decide) hmin) (by omega)
  rw [totalExponent] at htotal
  obtain ⟨e', he'⟩ : ∃ e' : Int, e' = -53 + k + j := ⟨_, rfl⟩
  rw [hround, ← he'] at htop
  have he : e' ≤ 971 := by
    cases htop
    assumption
  have hpower : (tenTo n).toModel.unpack =
      unpack Format.binary64 (pack Format.binary64 (.finite .positive m' e' h)) := by
    rw [he', ← hround, hm, tenTo, Float.ofScientific, dif_neg fun h => hsmall (by omega)]
    show unpack Format.binary64 (pack Format.binary64 (ofScientific Format.binary64 1 n)) = _
    have hlow : ¬ (n : Int) < -((2 : Int) ^ 11 + Nat.log2 1) := by omega
    have hhigh : ¬ (n : Int) > 2 ^ 11 := by omega
    rw [ofScientific, dif_neg (by decide), if_neg hhigh, if_neg hlow, if_pos (Int.natCast_nonneg n)]
    rfl
  rw [hpower, unpack_pack_of_full hmin' hmax' (by omega) he]
  exact .finite (Int.le_trans (by omega) (le_totalExponent hmin' e'))

/-! ## division by powers of ten -/

theorem isBelow_div_of_reachesTo {top low last : Int} {x y : Float} (hlast : -1074 ≤ last)
    (hmax : last ≤ 971) (hx : IsBelow top x.toModel.unpack) (hy : ReachesTo low y.toModel.unpack)
    (h : top + 2 ≤ last + low) : IsBelow last (x / y).toModel.unpack := by
  rw [unpack_div]
  refine isBelow_unpack_pack hlast hmax ?_
  generalize hu : x.toModel.unpack = u at hx
  generalize y.toModel.unpack = v at hy
  obtain ⟨hlow⟩ := hy
  cases hx with
  | zero s => exact .zero _
  | finite he => exact isBelow_div hlast (lt_of_unpack hu) (by omega) hlow

theorem isBelow_overTenTo {top : Int} (htop : -1074 ≤ top) (hmax : top + 1 ≤ 971) (x : Float)
    (n : Nat) (hx : IsBelow top x.toModel.unpack) :
    IsBelow (top + 1) (overTenTo x n).toModel.unpack := by
  -- dividing by the largest power keeps the bound, so only the last division can raise it
  fun_induction overTenTo x n with
  | case1 x n hn =>
    exact isBelow_div_of_reachesTo (by omega) hmax hx (reachesTo_tenTo hn) (by omega)
  | case2 x n hn hzero => exact hx.mono (by omega)
  | case3 x n hn hzero ih =>
    exact ih (isBelow_div_of_reachesTo htop (by omega) hx reachesTo_tenTo_topPower (by omega))

theorem isFinite_scaled? {s : Scientific} (hs : s.digits ≤ maxCount) {x : Float}
    (h : s.scaled? = some x) : x.isFinite := by
  have hcount := isBelow_count hs
  rw [Scientific.scaled?] at h
  change (if 0 ≤ s.exponent then timesTenTo? (Scientific.toFloat ⟨s.digits, 0⟩) _ else
    some (overTenTo (Scientific.toFloat ⟨s.digits, 0⟩) _)) = _ at h
  split at h
  · rw [timesTenTo?] at h
    split at h
    · obtain ⟨hfinite, h⟩ := Option.ite_none_right_eq_some.1 h
      cases h
      exact hfinite
    · obtain ⟨-, h⟩ := Option.ite_none_right_eq_some.1 h
      cases h
      exact hcount.isFinite
  · cases h
    exact (isBelow_overTenTo (by decide) (by decide) _ _ hcount).isFinite

theorem isFinite_neg {x : Float} (h : x.isFinite) : (-x).isFinite :=
  (isBelow_unpack_pack (by decide) (by decide) (isBelow_of_isFinite h).neg).isFinite

end Decimal

namespace Json

/-- the number is read back from the decimal that it is written as -/
def ReadsBack (x : Float) : Prop := (ofFloat x).float? = some x

instance (x : Float) : Decidable (ReadsBack x) :=
  inferInstanceAs (Decidable ((ofFloat x).float? = some x))

/-- **A number that is read is finite.** -/
theorem isFinite_of_float? {x : Json} {y : Float} (h : x.float? = some y) : y.isFinite := by
  cases x with
  | number l =>
    obtain ⟨z, hz, h⟩ := Option.map_eq_some_iff.1 h
    have hfinite := Decimal.isFinite_scaled? (Decimal.digits_ofWritten_le _ _ _) hz
    split at h
    · cases h
      exact Decimal.isFinite_neg hfinite
    · cases h
      exact hfinite
  | _ => cases h

theorem ReadsBack.isFinite {x : Float} (h : ReadsBack x) : x.isFinite := isFinite_of_float? h

end Json

end ContractAudit
