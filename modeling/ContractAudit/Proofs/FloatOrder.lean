import Mathlib

/-!
# The order of floating-point numbers

Numbers are compared by kind and sign first, then by exponent and then by mantissa.  So each number
has a place in a linear order, and what is not a number has none; two numbers compare as their
places do.

* `FloatOrder.place?`: the place of an unpacked number.
* `FloatOrder.compare_eq`: comparison of unpacked numbers by their places.
* `FloatOrder.le_iff`, `FloatOrder.lt_iff`: the order of numbers.
* `FloatOrder.le_trans`, `FloatOrder.lt_of_lt_of_le`, `FloatOrder.lt_of_le_of_lt`: what follows,
  without exception for what is not a number.
* `FloatOrder.ofNat_le_ofNat_iff`, `FloatOrder.ofNat_lt_ofNat_iff`: small counts.
-/

namespace ContractAudit.FloatOrder

open Float.Model

/-- kind and sign, then the exponent and then the mantissa -/
abbrev Place : Type := ℤ ×ₗ ℤ ×ₗ ℤ

def place (kind exponent mantissa : ℤ) : Place := toLex (kind, toLex (exponent, mantissa))

/-- the place of the number; below zero exponents and mantissas are turned around -/
def place? : UnpackedFloat → Option Place
  | .notANumber => none
  | .infinity .negative => some (place (-2) 0 0)
  | .finite .negative m e _ => some (place (-1) (-e) (-m))
  | .zero _ => some (place 0 0 0)
  | .finite .positive m e _ => some (place 1 e m)
  | .infinity .positive => some (place 2 0 0)

theorem compare_place (k e m k' e' m' : ℤ) : compare (place k e m) (place k' e' m') =
    (compare k k').then ((compare e e').then (compare m m')) := by
  rw [Prod.Lex.compare_def, compareLex, compareOn, compareOn, Prod.Lex.compare_def, compareLex]
  rfl

theorem compare_neg (a b : ℤ) : compare (-a) (-b) = compare b a := by
  have hanti : StrictAnti fun a : ℤ => -a := fun _ _ => neg_lt_neg
  rw [← cmp_eq_compare, ← cmp_eq_compare]
  exact hanti.cmp_map_eq a b

theorem compare_natCast (a b : ℕ) : compare (a : ℤ) (b : ℤ) = compare a b := by
  rw [← cmp_eq_compare, ← cmp_eq_compare]
  exact Nat.strictMono_cast.cmp_map_eq a b

/-- unpacked numbers compare as their places do -/
theorem compare_eq (u v : UnpackedFloat) :
    u.compare v = (place? u).bind fun p => (place? v).map fun q => compare p q := by
  -- kinds and signs decide, but for two finite numbers of the same sign
  rcases u with (_ | _) | _ | _ | ⟨_ | _, m, e, hm⟩ <;>
    rcases v with (_ | _) | _ | _ | ⟨_ | _, m', e', hm'⟩ <;> try rfl
  · show some ((compare e e').then (compare m m')).swap =
      some (compare (place (-1) (-e) (-m)) (place (-1) (-e') (-m')))
    rw [compare_place, compare_neg e, compare_neg m, compare_natCast, Ordering.swap_then,
      Int.compare_swap, Nat.compare_swap]
    rfl
  · show some ((compare e e').then (compare m m')) = some (compare (place 1 e m) (place 1 e' m'))
    rw [compare_place, compare_natCast]
    rfl

/-- the place of a number -/
def placeOf? (x : Float) : Option Place := place? x.toModel.unpack

section
variable {x y z : Float}

theorem le_iff : x ≤ y ↔ ∃ p ∈ placeOf? x, ∃ q ∈ placeOf? y, p ≤ q := by
  have h : x ≤ y ↔ (x.toModel.unpack.compare y.toModel.unpack).any (·.isLE) := decide_eq_true_iff
  rw [h, compare_eq, placeOf?, placeOf?]
  cases place? x.toModel.unpack with
  | none => simp
  | some p =>
    cases place? y.toModel.unpack with
    | none => simp
    | some q => simp [← Ordering.ne_gt_iff_isLE, compare_le_iff_le]

theorem lt_iff : x < y ↔ ∃ p ∈ placeOf? x, ∃ q ∈ placeOf? y, p < q := by
  have h : x < y ↔ x.toModel.unpack.compare y.toModel.unpack == some .lt := decide_eq_true_iff
  rw [h, compare_eq, placeOf?, placeOf?]
  cases place? x.toModel.unpack with
  | none => simp
  | some p =>
    cases place? y.toModel.unpack with
    | none => simp
    | some q => simp [compare_lt_iff_lt]

theorem le_trans (hxy : x ≤ y) (hyz : y ≤ z) : x ≤ z := by
  obtain ⟨p, hp, q, hq, hpq⟩ := le_iff.1 hxy
  obtain ⟨q', hq', r, hr, hqr⟩ := le_iff.1 hyz
  obtain rfl := Option.mem_unique hq hq'
  exact le_iff.2 ⟨p, hp, r, hr, hpq.trans hqr⟩

theorem lt_of_lt_of_le (hxy : x < y) (hyz : y ≤ z) : x < z := by
  obtain ⟨p, hp, q, hq, hpq⟩ := lt_iff.1 hxy
  obtain ⟨q', hq', r, hr, hqr⟩ := le_iff.1 hyz
  obtain rfl := Option.mem_unique hq hq'
  exact lt_iff.2 ⟨p, hp, r, hr, hpq.trans_le hqr⟩

theorem lt_of_le_of_lt (hxy : x ≤ y) (hyz : y < z) : x < z := by
  obtain ⟨p, hp, q, hq, hpq⟩ := le_iff.1 hxy
  obtain ⟨q', hq', r, hr, hqr⟩ := lt_iff.1 hyz
  obtain rfl := Option.mem_unique hq hq'
  exact lt_iff.2 ⟨p, hp, r, hr, hpq.trans_lt hqr⟩

theorem le_of_lt (hxy : x < y) : x ≤ y := by
  obtain ⟨p, hp, q, hq, hpq⟩ := lt_iff.1 hxy
  exact le_iff.2 ⟨p, hp, q, hq, hpq.le⟩

theorem not_le_of_lt (hxy : x < y) : ¬ y ≤ x := by
  intro hyx
  obtain ⟨p, hp, q, hq, hpq⟩ := lt_iff.1 (lt_of_lt_of_le hxy hyx)
  obtain rfl := Option.mem_unique hp hq
  exact lt_irrefl p hpq

end

/-! ## small counts -/

section
variable {a b : Nat}

theorem ofNat_lt_ofNat_succ (ha : a ≤ 100) : Float.ofNat a < Float.ofNat (a + 1) := by
  have hnext : ∀ k : Fin 101, Float.ofNat k < Float.ofNat (k + 1) := by decide +kernel
  exact hnext ⟨a, Nat.lt_succ_of_le ha⟩

/-- counts up to a hundred are in order -/
theorem ofNat_lt_ofNat (hab : a < b) (hb : b ≤ 100) : Float.ofNat a < Float.ofNat b := by
  induction b, hab using Nat.le_induction with
  | base => exact ofNat_lt_ofNat_succ (by omega)
  | succ b _ ih => exact lt_of_lt_of_le (ih (by omega)) (le_of_lt (ofNat_lt_ofNat_succ (by omega)))

theorem ofNat_le_ofNat (hab : a ≤ b) (hb : b ≤ 100) : Float.ofNat a ≤ Float.ofNat b := by
  rcases Nat.eq_or_lt_of_le hab with rfl | hlt
  · obtain ⟨p, hp, -⟩ := lt_iff.1 (ofNat_lt_ofNat_succ hb)
    exact le_iff.2 ⟨p, hp, p, hp, le_rfl⟩
  · exact le_of_lt (ofNat_lt_ofNat hlt hb)

theorem ofNat_lt_ofNat_iff (ha : a ≤ 100) (hb : b ≤ 100) :
    Float.ofNat a < Float.ofNat b ↔ a < b := by
  refine ⟨fun h => ?_, fun h => ofNat_lt_ofNat h hb⟩
  by_contra hba
  exact not_le_of_lt h (ofNat_le_ofNat (Nat.not_lt.1 hba) ha)

theorem ofNat_le_ofNat_iff (ha : a ≤ 100) (hb : b ≤ 100) :
    Float.ofNat a ≤ Float.ofNat b ↔ a ≤ b := by
  refine ⟨fun h => ?_, fun h => ofNat_le_ofNat h hb⟩
  by_contra hba
  exact not_le_of_lt (ofNat_lt_ofNat (Nat.not_le.1 hba) ha) h

end

end ContractAudit.FloatOrder
