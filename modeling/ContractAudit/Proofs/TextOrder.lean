import Mathlib.Algebra.Order.Ring.Nat
import Mathlib.Data.List.Basic
import Mathlib.Tactic.SplitIfs

/-!
# Texts in the order of their bytes

Texts are ordered character by character.  Their bytes in UTF-8 are in the same order.

* `byteShape v`: how many bytes follow the first one of the character `v`, and what marks that one.
* `lowDigits v n`: the bytes that follow, which hold the lowest digits of `v` in base 64.
* `utf8EncodeChar_append_lt`: the bytes of a smaller character are smaller, whatever comes behind.
* `utf8Bytes_lt`: texts are in the order of their bytes.
-/

namespace ContractAudit

/-! ## the bytes of one character -/

def byteShape (v : Nat) : Nat × Nat :=
  if v ≤ 127 then (0, 0)
  else if v ≤ 2047 then (1, 192)
  else if v ≤ 65535 then (2, 224)
  else (3, 240)

def firstByte (v : Nat) : Nat := v / 64 ^ (byteShape v).1 + (byteShape v).2

def lowDigits (v : Nat) : Nat → List UInt8
  | 0 => []
  | n + 1 => .ofNat (v / 64 ^ n % 64 + 128) :: lowDigits v n

theorem utf8EncodeChar_eq {c : Char} {v : Nat} (hv : c.val.toNat = v) (h : v < 1114112) :
    String.utf8EncodeChar c = .ofNat (firstByte v) :: lowDigits v (byteShape v).1 := by
  have htwo : v ≤ 2047 → v / 64 % 32 = v / 64 := by omega
  have hthree : v ≤ 65535 → v / 4096 % 16 = v / 4096 := by omega
  have hfour : v / 262144 % 8 = v / 262144 := by omega
  rw [String.utf8EncodeChar, hv, firstByte, byteShape]
  split_ifs
  · simp only [Nat.pow_zero, Nat.div_one, Nat.add_zero, lowDigits]
  · simp only [htwo ‹_›, Nat.reducePow, Nat.div_one, lowDigits]
  · simp only [hthree ‹_›, Nat.reducePow, Nat.div_one, lowDigits]
  · simp only [hfour, Nat.reducePow, Nat.div_one, lowDigits]

theorem toNat_val_lt (c : Char) : c.val.toNat < 1114112 := by
  rcases c.valid with h | h <;> omega

theorem firstByte_lt {v : Nat} (h : v < 1114112) : firstByte v < 256 := by
  rw [firstByte, byteShape]
  split_ifs <;> simp only [Nat.reducePow] <;> omega

theorem byteShape_eq_or {v w : Nat} (h : v < w) (hw : w < 1114112) :
    byteShape v = byteShape w ∨ firstByte v < firstByte w := by
  rw [firstByte, firstByte, byteShape, byteShape]
  split_ifs
  all_goals first | exact .inl rfl | (simp only [Nat.reducePow]; omega)

/-! ## order -/

theorem ofNat_cons_lt {a b : Nat} (ha : a < 256) (hb : b < 256) {x y : List UInt8} :
    UInt8.ofNat a :: x < UInt8.ofNat b :: y ↔ a < b ∨ a = b ∧ x < y := by
  rw [List.cons_lt_cons_iff, UInt8.lt_iff_toNat_lt, ← UInt8.toNat_inj, UInt8.toNat_ofNat',
    UInt8.toNat_ofNat', Nat.mod_eq_of_lt ha, Nat.mod_eq_of_lt hb]

theorem lowDigits_append_lt {v w n : Nat} (h : v % 64 ^ n < w % 64 ^ n) (x y : List UInt8) :
    lowDigits v n ++ x < lowDigits w n ++ y := by
  induction n with
  | zero =>
    rw [Nat.pow_zero, Nat.mod_one, Nat.mod_one] at h
    exact absurd h (Nat.lt_irrefl 0)
  | succ n ih =>
    rw [Nat.pow_succ, Nat.mod_mul, Nat.mod_mul] at h
    rw [lowDigits, lowDigits, List.cons_append, List.cons_append,
      ofNat_cons_lt (by omega) (by omega), Nat.add_lt_add_iff_right, Nat.add_right_cancel_iff]
    rcases Nat.lt_trichotomy (v / 64 ^ n % 64) (w / 64 ^ n % 64) with hlt | heq | hgt
    · exact .inl hlt
    · rw [heq] at h
      exact .inr ⟨heq, ih (Nat.lt_of_add_lt_add_right h)⟩
    · have hle := Nat.mul_le_mul_left (64 ^ n) hgt
      have hlow : w % 64 ^ n < 64 ^ n := Nat.mod_lt _ (Nat.pow_pos (by decide))
      rw [Nat.mul_succ] at hle
      omega

/-- no character's bytes are the beginning of another's, so what comes behind does not matter -/
theorem utf8EncodeChar_append_lt {c d : Char} (h : c < d) (x y : List UInt8) :
    String.utf8EncodeChar c ++ x < String.utf8EncodeChar d ++ y := by
  obtain ⟨v, hv⟩ : ∃ v, c.val.toNat = v := ⟨_, rfl⟩
  obtain ⟨w, hw⟩ : ∃ w, d.val.toNat = w := ⟨_, rfl⟩
  have hvw : v < w := hv ▸ hw ▸ h
  have hw' : w < 1114112 := hw ▸ toNat_val_lt d
  have hv' : v < 1114112 := Nat.lt_trans hvw hw'
  rw [utf8EncodeChar_eq hv hv', utf8EncodeChar_eq hw hw', List.cons_append, List.cons_append,
    ofNat_cons_lt (firstByte_lt hv') (firstByte_lt hw')]
  rcases byteShape_eq_or hvw hw' with hshape | hlt
  · -- both have the same number of bytes, which are compared digit by digit
    obtain ⟨n, hn⟩ : ∃ n, (byteShape w).1 = n := ⟨_, rfl⟩
    rw [firstByte, firstByte, hshape, hn, Nat.add_lt_add_iff_right, Nat.add_right_cancel_iff]
    rcases Nat.lt_or_eq_of_le (Nat.div_le_div_right (c := 64 ^ n) (Nat.le_of_lt hvw)) with hlt | heq
    · exact .inl hlt
    · refine .inr ⟨heq, lowDigits_append_lt ?_ x y⟩
      have hdiv := Nat.div_add_mod v (64 ^ n)
      have hdiv' := Nat.div_add_mod w (64 ^ n)
      rw [heq] at hdiv
      omega
  · exact .inl hlt

theorem flatMap_utf8EncodeChar_lt {x y : List Char} (h : x < y) :
    x.flatMap String.utf8EncodeChar < y.flatMap String.utf8EncodeChar := by
  induction h with
  | nil =>
    rw [List.flatMap_cons]
    obtain ⟨a, l, ha⟩ := List.exists_cons_of_ne_nil String.utf8EncodeChar_ne_nil
    rw [ha]
    exact List.nil_lt_cons a _
  | cons _ ih =>
    rw [List.flatMap_cons, List.flatMap_cons]
    exact List.append_left_lt ih
  | rel h =>
    rw [List.flatMap_cons, List.flatMap_cons]
    exact utf8EncodeChar_append_lt h _ _

/-! ## texts -/

def utf8Bytes (s : String) : List UInt8 := s.toUTF8.data.toList

theorem utf8Bytes_eq (s : String) : utf8Bytes s = s.toList.flatMap String.utf8EncodeChar := by
  rw [utf8Bytes, String.toUTF8_eq_toByteArray, ← String.utf8Encode_toList, List.utf8Encode,
    List.toList_data_toByteArray]

theorem utf8Bytes_lt {s t : String} (h : s < t) : utf8Bytes s < utf8Bytes t := by
  rw [utf8Bytes_eq, utf8Bytes_eq]
  exact flatMap_utf8EncodeChar_lt (String.lt_iff.1 h)

theorem utf8Bytes_lt_of_compare {s t : String} (h : compare s t = .lt) :
    utf8Bytes s < utf8Bytes t := utf8Bytes_lt (compareOfLessAndEq_eq_lt.1 h)

end ContractAudit
