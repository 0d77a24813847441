import ContractAudit.Proofs.Numerals

/-!
# Floating-point numbers as words

* `Decimal.IsZero x`: `x` is a zero, with either sign.
* `Decimal.not_isZero_abs`: the size of a finite number that is no zero is no zero.
* `Decimal.digits_shortest_ne_zero`: the shortest decimal of such a size has a digit that counts.
* `Decimal.isUnsigned_text`, `Decimal.isNumeral_number?`: decimals are written as JSON spells
  numbers.
-/

namespace ContractAudit.Decimal

open Float.Model (Format)
open Float.Model.UnpackedFloat Json Text

/-! ## zeros -/

/-- the number is a zero, with either sign -/
def IsZero (x : Float) : Prop := ∃ s, x.toModel.unpack = .zero s

theorem beq_iff_isZero {x y : Float} (hx : IsZero x) : x == y ↔ IsZero y := by
  obtain ⟨s, hx⟩ := hx
  show (x.toModel.unpack.compare y.toModel.unpack == some .eq) = true ↔ _
  rw [hx, IsZero]
  cases hy : y.toModel.unpack with
  | zero s' => exact ⟨fun _ => ⟨s', rfl⟩, fun _ => rfl⟩
  | infinity s' => cases s' <;> simp [Float.Model.UnpackedFloat.compare]
  | notANumber => simp [Float.Model.UnpackedFloat.compare]
  | finite s' m e h => cases s' <;> simp [Float.Model.UnpackedFloat.compare]

theorem beq_zero_of_isZero {x : Float} (hx : IsZero x) : x == 0 :=
  (beq_iff_isZero hx).2 ⟨.positive, rfl⟩

theorem unpack_eq_zero_iff (b : BitVec 64) :
    (∃ s, unpack Format.binary64 b = .zero s) ↔
      @unpackExponent Format.binary64 b = 0 ∧
        @unpackMantissa Format.binary64 b = 0 := by
  rw [unpack]
  constructor
  · rintro ⟨s, h⟩
    split at h
    · split at h <;> cases h
    · split at h
      · rename_i he
        split at h
        · rename_i hm
          exact ⟨he, hm⟩
        · cases h
      · cases h
  · rintro ⟨he, hm⟩
    have hone : @unpackExponent Format.binary64 b ≠ -1#_ := by
      rw [he]
      decide
    refine ⟨Sign.ofBitVec (@unpackSign Format.binary64 b), ?_⟩
    rw [if_neg hone]
    exact (if_pos he).trans (dif_pos hm)

/-- what is packed with an exponent or a mantissa is no zero -/
theorem unpack_packComponents_ne_zero {s : Sign} {e : BitVec 11} {m : BitVec 52}
    (h : e ≠ 0 ∨ m ≠ 0) (s' : Sign) :
    unpack Format.binary64 (packComponents Format.binary64 s e m) ≠ .zero s' := by
  intro hzero
  obtain ⟨he, hm⟩ := (unpack_eq_zero_iff _).1 ⟨s', hzero⟩
  rw [unpackExponent_packComponents] at he
  rw [unpackMantissa_packComponents] at hm
  exact h.elim (fun h => h he) (fun h => h hm)

theorem bounds_of_unpack {b : BitVec 64} {s : Sign} {m : Nat} {e : Int} {hm : 0 < m}
    (h : unpack Format.binary64 b = .finite s m e hm) : m < 2 ^ 53 ∧ -1074 ≤ e := by
  have hmantissa : (@unpackMantissa Format.binary64 b).toNat < 2 ^ 52 := BitVec.isLt _
  rw [unpack] at h
  split at h
  · split at h <;> cases h
  · split at h
    · rename_i hzero
      split at h
      · cases h
      · cases h
        refine ⟨by omega, ?_⟩
        rw [hzero]
        decide
    · rename_i hne
      cases h
      constructor
      · rw [BitVec.toNat_append, ← Nat.shiftLeft_add_eq_or_of_lt (BitVec.isLt _)]
        show 1 * 2 ^ 52 + _ < _
        omega
      · have hpos : (@unpackExponent Format.binary64 b).toNat ≠ 0 := fun h =>
          hne (BitVec.eq_of_toNat_eq h)
        show -1074 ≤ ((@unpackExponent Format.binary64 b).toNat : Int) - (1023 + 52)
        omega

/-- a finite number within the bounds of the format is not packed as a zero -/
theorem unpack_pack_ne_zero {s : Sign} {m : Nat} {e : Int} (hm : 0 < m) (hlt : m < 2 ^ 53)
    (he : -1074 ≤ e) (s' : Sign) :
    unpack Format.binary64 (pack Format.binary64 (.finite s m e hm)) ≠ .zero s' := by
  rw [pack]
  split
  · exact unpack_packComponents_ne_zero (.inl (by decide)) s'
  · rename_i hbiased
    change ¬ 2 ^ 11 ≤ (e + 1023 + 52).toNat + 1 at hbiased
    split
    · refine unpack_packComponents_ne_zero (.inl fun h => ?_) s'
      have h := congrArg BitVec.toNat h
      change (e + 1023 + 52).toNat % 2 ^ 11 = 0 at h
      omega
    · rename_i hlog
      change ¬ m.log2 + 1 = 53 at hlog
      refine unpack_packComponents_ne_zero (.inr fun h => ?_) s'
      have h := congrArg BitVec.toNat h
      change m % 2 ^ 52 = 0 at h
      have hlog' : m.log2 < 53 := (Nat.log2_lt (Nat.ne_of_gt hm)).2 hlt
      have hsmall : m < 2 ^ 52 := (Nat.log2_lt (Nat.ne_of_gt hm)).1 (by omega)
      omega

/-- the size of a finite number that is no zero is no zero -/
theorem not_isZero_abs {x : Float} (hfinite : x.isFinite) (hx : ¬ x == 0) : ¬ IsZero x.abs := by
  rintro ⟨s', h⟩
  change unpack Format.binary64 (pack Format.binary64 x.toModel.unpack.abs) = .zero s' at h
  change x.toModel.unpack.isFinite = true at hfinite
  cases hu : x.toModel.unpack with
  | zero s => exact hx (beq_zero_of_isZero ⟨s, hu⟩)
  | finite s m e hm =>
    rw [hu] at h
    obtain ⟨hlt, he⟩ := bounds_of_unpack hu
    exact unpack_pack_ne_zero hm hlt he s' h
  | _ =>
    rw [hu] at hfinite
    cases hfinite

/-! ## digits that count -/

theorem isZero_of_toBits {x : Float} (h : x.toBits = 0) : IsZero x := by
  refine ⟨.positive, ?_⟩
  show unpack Format.binary64 x.toBits.toBitVec = _
  rw [h]
  rfl

theorem isZero_ofScientific_zero (negative : Bool) (e : Nat) :
    IsZero (Float.ofScientific 0 negative e) := by
  by_cases he : e < 23
  · have hsmall : ∀ e < 23, ∀ negative, (Float.ofScientific 0 negative e).toBits = 0 := by
      decide +kernel
    exact isZero_of_toBits (hsmall e he negative)
  · rw [Float.ofScientific, dif_neg (by omega)]
    refine ⟨.positive, ?_⟩
    show unpack Format.binary64 (pack Format.binary64 (ofScientific Format.binary64 0
      (if negative then Int.negOfNat e else Int.ofNat e))) = _
    rw [ofScientific, dif_pos rfl]
    rfl

/-- a decimal that reads back as a number that is no zero has a digit that counts -/
theorem digits_ne_zero_of_beq {s : Scientific} {x : Float} (h : s.toFloat == x)
    (hx : ¬ IsZero x) : s.digits ≠ 0 := by
  intro hdigits
  refine hx ((beq_iff_isZero ?_).1 h)
  rw [Scientific.toFloat, hdigits]
  split <;> exact isZero_ofScientific_zero _ _

theorem isZero_of_magnitude {x : Float} (h : (magnitude x).1 = 0) : IsZero x := by
  have hbits : x.toBits.toNat % signUnit = 0 := by
    rw [magnitude] at h
    have hdivmod := Nat.div_add_mod (x.toBits.toNat % signUnit) mantissaUnit
    split at h
    · rename_i he
      rw [he] at hdivmod
      omega
    · exact absurd h (Nat.ne_of_gt (Nat.lt_of_lt_of_le (by decide) (Nat.le_add_left _ _)))
  rw [signUnit] at hbits
  refine (unpack_eq_zero_iff x.toModel.toBits.toBitVec).2 ⟨BitVec.eq_of_toNat_eq ?_,
    BitVec.eq_of_toNat_eq ?_⟩
  · have : (@unpackExponent Format.binary64 x.toModel.toBits.toBitVec).toNat =
        x.toBits.toNat / 2 ^ 52 % 2 ^ 11 := by
      simp [unpackExponent, Nat.shiftRight_eq_div_pow, Float.toBits]
    show _ = 0
    rw [this]
    omega
  · have : (@unpackMantissa Format.binary64 x.toModel.toBits.toBitVec).toNat =
        x.toBits.toNat % 2 ^ 52 := by
      simp [unpackMantissa, Float.toBits]
    show _ = 0
    rw [this]
    omega

theorem digits_expansion_ne_zero {x : Float} (hx : ¬ IsZero x) : (expansion x).digits ≠ 0 := by
  have hm : (magnitude x).1 ≠ 0 := fun h => hx (isZero_of_magnitude h)
  show (if 0 ≤ (magnitude x).2 then Scientific.mk _ _ else Scientific.mk _ _).digits ≠ 0
  split
  · exact Nat.mul_ne_zero hm (Nat.ne_of_gt (Nat.pow_pos (by decide)))
  · exact Nat.mul_ne_zero hm (Nat.ne_of_gt (Nat.pow_pos (by decide)))

/-- the shortest decimal of a number that is no zero has a digit that counts -/
theorem digits_shortest_ne_zero {x : Float} (hx : ¬ IsZero x) : (shortest x).digits ≠ 0 := by
  rw [shortest]
  cases hfind : (List.range' 1 17).findSome? (candidate x) with
  | none => exact digits_expansion_ne_zero hx
  | some s =>
    obtain ⟨n, -, hn⟩ := List.exists_of_findSome?_eq_some hfind
    rw [candidate] at hn
    exact digits_ne_zero_of_beq (List.find?_eq_some_iff_append.1 hn).1 hx

/-! ## spellings -/

theorem toList_zeros (n : Nat) : (zeros n).toList = List.replicate n '0' := String.toList_ofList

section
variable {digits : String} {c : Char} {cs : List Char} (hcons : digits.toList = c :: cs)
  (hc : c ≠ '0') (hd : AllDigits (c :: cs))
include hcons hc hd

theorem isUnsigned_positional (exponent : Int) :
    IsUnsigned (positional digits exponent).toList := by
  have hlength : digits.length = (c :: cs).length := by rw [← hcons, String.length_toList]
  rw [positional]
  split
  · refine ⟨digits.toList ++ List.replicate exponent.toNat '0', ['.', '0'], [], ?_, ?_, ?_, .inl rfl⟩
    · rw [String.toList_append, String.toList_append, toList_zeros, List.append_nil]
      rfl
    · rw [hcons]
      exact .inr ⟨c, _, rfl, hc, hd.append (allDigits_zeros _)⟩
    · exact .inr ⟨['0'], rfl, by decide, allDigits_zeros 1⟩
  · rename_i hneg
    split
    · rename_i hpoint
      obtain ⟨k, hk⟩ : ∃ k, (digits.length + exponent).toNat = k + 1 :=
        Nat.exists_eq_succ_of_ne_zero (by omega)
      have hlt : k + 1 < (c :: cs).length := by omega
      rw [hk, hcons]
      refine ⟨(c :: cs).take (k + 1), '.' :: (c :: cs).drop (k + 1), [], ?_, ?_, ?_, .inl rfl⟩
      · simp
      · exact .inr ⟨c, cs.take k, rfl, hc, fun d h => hd d (List.take_subset (k + 1) _ h)⟩
      · refine .inr ⟨_, rfl, ?_, fun d h => hd d (List.drop_subset (k + 1) _ h)⟩
        rw [ne_eq, List.drop_eq_nil_iff]
        omega
    · refine ⟨['0'], '.' :: (List.replicate (-(digits.length + exponent)).toNat '0' ++ c :: cs), [],
        ?_, .inl rfl, .inr ⟨_, rfl, by simp, (allDigits_zeros _).append hd⟩, .inl rfl⟩
      rw [String.toList_append, String.toList_append, toList_zeros, hcons]
      simp

theorem isUnsigned_withExponent (exponent : Int) :
    IsUnsigned (withExponent digits exponent).toList := by
  rw [withExponent, hcons]
  generalize (digits.length : Int) + exponent - 1 = e
  have hexponent : IsExponent
      ('e' :: (if e < 0 then '-' else '+') :: Nat.toDigits 10 e.natAbs) := by
    refine .inr ⟨'e', [if e < 0 then '-' else '+'], _, rfl, .inl rfl, ?_, Nat.toDigits_ne_nil,
      allDigits_toDigits _⟩
    split
    · exact .inr (.inr rfl)
    · exact .inr (.inl rfl)
  have hmark : (if e < 0 then "-" else "+").toList = [if e < 0 then '-' else '+'] := by
    split <;> rfl
  have hc : IsWhole [c] := .inr ⟨c, [], rfl, hc, fun x hx =>
    hd x (List.mem_singleton.1 hx ▸ List.mem_cons_self)⟩
  cases cs with
  | nil =>
    refine ⟨[c], [], _, ?_, hc, .inl rfl, hexponent⟩
    show (String.ofList [c] ++ "e" ++ _ ++ _).toList = _
    simp [hmark]
  | cons d ds =>
    refine ⟨[c], '.' :: d :: ds, _, ?_, hc, .inr ⟨_, rfl, List.cons_ne_nil _ _, hd.tail⟩, hexponent⟩
    show (String.ofList (c :: '.' :: d :: ds) ++ "e" ++ _ ++ _).toList = _
    simp [hmark]

end

/-- a decimal with a digit that counts is written as JSON spells numbers -/
theorem isUnsigned_text {s : Scientific} (hs : s.digits ≠ 0) : IsUnsigned s.text.toList := by
  obtain ⟨c, cs, hcons, hc⟩ := toDigits_eq_cons hs
  have hd : AllDigits (c :: cs) := hcons ▸ allDigits_toDigits s.digits
  have hdigits : (toString s.digits).toList = c :: cs := by
    rw [← hcons, Nat.toString_eq_repr, Nat.toList_repr]
  rw [Scientific.text]
  split
  · exact isUnsigned_positional hdigits hc hd s.exponent
  · exact isUnsigned_withExponent hdigits hc hd s.exponent

theorem isNumeral_sign_append (x : Float) {s : String} (hs : IsUnsigned s.toList) :
    IsNumeral (sign x ++ s).toList := by
  rw [sign, String.toList_append]
  split
  · exact .inr ⟨s.toList, rfl, hs⟩
  · exact .inl hs

/-- finite numbers are written, and as JSON spells numbers -/
theorem isNumeral_number? {x : Float} {s : String} (h : number? x = some s) :
    IsNumeral s.toList := by
  rw [number?] at h
  split at h
  · cases h
  · rename_i hfinite
    split at h
    · rw [← Option.some_inj.1 h]
      refine isNumeral_sign_append x ⟨['0'], ['.', '0'], [], rfl, .inl rfl, ?_, .inl rfl⟩
      exact .inr ⟨['0'], rfl, by decide, allDigits_zeros 1⟩
    · rename_i hzero
      rw [← Option.some_inj.1 h]
      refine isNumeral_sign_append x (isUnsigned_text (digits_shortest_ne_zero ?_))
      exact not_isZero_abs (by simpa using hfinite) hzero

end ContractAudit.Decimal
