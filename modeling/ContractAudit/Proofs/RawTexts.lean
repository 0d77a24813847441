import Mathlib.Tactic.Ring
import ContractAudit.Proofs.TextOrder
import ContractAudit.Text.Raw

/-!
# Texts among the rows of bytes

What is shown for the bytes of a text is that text.

* `Std.TransOrd RawText`, `Std.LawfulEqOrd RawText`: the order of bytes is a total order.
* `RawText.Reader.read_inside_append`: a reader in a character, when all its bytes come.
* `RawText.Reader.read_cons_append`: a reader between two characters, when the first byte comes.
* `RawText.Reader.read_utf8EncodeChar_append`, `RawText.Reader.read_utf8_append`: a reader between
  two characters, when one or several come.
* `RawText.mem_bytes_ofString_iff`: a byte of ASCII in the bytes of a text.
* `RawText.text_ofString`: what is shown for the bytes of a text.
* `RawText.IsUtf8`: these are the bytes of a text.
-/

namespace ContractAudit

open Std

namespace RawText

instance : TransOrd RawText := inferInstanceAs (TransCmp (compareOn RawText.bytes))

instance : LawfulEqOrd RawText where
  eq_of_compare h := bytes_inj.1 (LawfulEqOrd.eq_of_compare (α := List UInt8) h)

theorem ofString_append (s t : String) : ofString (s ++ t) = ofString s ++ ofString t := by
  refine bytes_inj.1 ?_
  rw [bytes_append, ofString, String.toList_append, utf8_append]
  rfl

/-! ## reading -/

namespace Reader

theorem toNat_digit (d : Nat) :
    (UInt8.ofNat (d % 64 + 128)).toNat = d % 64 + 128 ∧ (d % 64 + 128) % 64 = d % 64 := by
  rw [UInt8.toNat_ofNat']
  omega

/-- a reader in a character comes to its end with the digits that are missing -/
theorem read_inside_append {v n low high : Nat} (hlow : low ≤ v / 64 ^ n % 64 + 128)
    (hhigh : v / 64 ^ n % 64 + 128 ≤ high) (value : Nat) (bs : List UInt8) :
    (inside value low high n).read (lowDigits v (n + 1) ++ bs) =
      Char.ofNat (value * 64 ^ (n + 1) + v % 64 ^ (n + 1)) :: outside.read bs := by
  induction n generalizing value low high with
  | zero =>
    obtain ⟨hdigit, hmod⟩ := toNat_digit (v / 64 ^ 0)
    rw [lowDigits, List.cons_append, read, hdigit, step, if_pos ⟨hlow, hhigh⟩]
    simp only [hmod]
    rw [Nat.pow_zero, Nat.div_one]
    rfl
  | succ n ih =>
    obtain ⟨hdigit, hmod⟩ := toNat_digit (v / 64 ^ (n + 1))
    rw [lowDigits, List.cons_append, read, hdigit, step, if_pos ⟨hlow, hhigh⟩]
    simp only [hmod, List.nil_append]
    rw [ih (by omega) (by omega), Nat.pow_succ 64 (n + 1), Nat.mod_mul]
    congr 2
    ring

/-- a reader that has a first byte has read all but the digits that are missing -/
theorem read_cons_append {v n low high b : Nat} (hb : b < 256)
    (hfirst : first b = ([], inside (v / 64 ^ (n + 1)) low high n))
    (hlow : low ≤ v / 64 ^ n % 64 + 128) (hhigh : v / 64 ^ n % 64 + 128 ≤ high) (bs : List UInt8) :
    outside.read (UInt8.ofNat b :: (lowDigits v (n + 1) ++ bs)) =
      Char.ofNat v :: outside.read bs := by
  rw [read, UInt8.toNat_ofNat', Nat.mod_eq_of_lt hb, step, hfirst]
  simp only [List.nil_append]
  rw [read_inside_append hlow hhigh, Nat.div_add_mod']

/-- a reader between two characters reads the next one -/
theorem read_utf8EncodeChar_append (c : Char) (bs : List UInt8) :
    outside.read (String.utf8EncodeChar c ++ bs) = c :: outside.read bs := by
  obtain ⟨v, hv⟩ : ∃ v, c.val.toNat = v := ⟨_, rfl⟩
  have hvalid : v < 0xD800 ∨ 0xDFFF < v ∧ v < 0x110000 := hv ▸ c.valid
  have hc : Char.ofNat v = c := hv ▸ Char.ofNat_toNat c
  have hlt : v < 1114112 := by omega
  rw [utf8EncodeChar_eq hv hlt, ← hc, List.cons_append]
  have hbyte := firstByte_lt hlt
  unfold firstByte byteShape at hbyte ⊢
  split_ifs at hbyte ⊢ with hone htwo hthree
  · simp only [Nat.pow_zero, Nat.div_one, Nat.add_zero] at hbyte ⊢
    rw [read, UInt8.toNat_ofNat', Nat.mod_eq_of_lt hbyte, step, first, if_pos (by omega)]
    rfl
  · have hfirst : first (v / 64 + 192) = ([], inside (v / 64) 0x80 0xBF 0) := by
      grind [first]
    exact read_cons_append hbyte hfirst (by omega) (by omega) bs
  · have hfirst : first (v / 4096 + 224) = ([], inside (v / 4096)
        (if v / 4096 = 0 then 0xA0 else 0x80) (if v / 4096 = 13 then 0x9F else 0xBF) 1) := by
      grind [first]
    refine read_cons_append hbyte hfirst ?_ ?_ bs <;> split_ifs <;> omega
  · have hfirst : first (v / 262144 + 240) = ([], inside (v / 262144)
        (if v / 262144 = 0 then 0x90 else 0x80) (if v / 262144 = 4 then 0x8F else 0xBF) 2) := by
      grind [first]
    refine read_cons_append hbyte hfirst ?_ ?_ bs <;> split_ifs <;> omega

theorem read_utf8_append (cs : List Char) (bs : List UInt8) :
    outside.read (utf8 cs ++ bs) = cs ++ outside.read bs := by
  induction cs with
  | nil => rfl
  | cons c cs ih =>
    rw [utf8_cons, List.append_assoc, read_utf8EncodeChar_append, ih, List.cons_append]

end Reader

/-! ## bytes of characters -/

theorem le_of_mem_lowDigits {v n : Nat} {b : UInt8} (h : b ∈ lowDigits v n) : 128 ≤ b.toNat := by
  induction n with
  | zero => cases h
  | succ n ih =>
    rw [lowDigits, List.mem_cons] at h
    rcases h with rfl | h
    · rw [(Reader.toNat_digit _).1]
      omega
    · exact ih h

/-- a byte of ASCII is all of its character -/
theorem mem_utf8EncodeChar_iff {b : UInt8} (hb : b.toNat < 128) {c : Char} :
    b ∈ String.utf8EncodeChar c ↔ b.toNat = c.toNat := by
  obtain ⟨v, hv⟩ : ∃ v, c.val.toNat = v := ⟨_, rfl⟩
  have hlt : v < 1114112 := hv ▸ toNat_val_lt c
  have hbyte := firstByte_lt hlt
  rw [utf8EncodeChar_eq hv hlt, List.mem_cons,
    or_iff_left fun h => Nat.not_lt.2 (le_of_mem_lowDigits h) hb, ← UInt8.toNat_inj,
    UInt8.toNat_ofNat', Nat.mod_eq_of_lt hbyte]
  show b.toNat = firstByte v ↔ b.toNat = c.val.toNat
  rw [hv, firstByte, byteShape]
  split_ifs <;> simp only [Nat.reducePow] <;> omega

theorem mem_bytes_ofString_iff {s : String} {b : UInt8} {c : Char} (hc : b.toNat = c.toNat)
    (hb : b.toNat < 128) : b ∈ (ofString s).bytes ↔ c ∈ s.toList := by
  unfold ofString utf8
  simp only [List.mem_flatMap, mem_utf8EncodeChar_iff hb, hc, Char.toNat_inj, exists_eq_right']

theorem size_ofString (s : String) : (ofString s).size = s.utf8ByteSize := by
  rw [size, ofString, utf8, ← utf8Bytes_eq]
  rfl

/-! ## texts -/

theorem text_ofString (s : String) : (ofString s).text = s := by
  have hread := Reader.read_utf8_append s.toList []
  rw [List.append_nil] at hread
  rw [text, ofString, hread, Reader.read, List.append_nil, String.ofList_toList]

theorem ofString_inj {s t : String} : ofString s = ofString t ↔ s = t :=
  ⟨fun h => by rw [← text_ofString s, h, text_ofString], congrArg ofString⟩

/-- these are the bytes of a text -/
def IsUtf8 (a : RawText) : Prop := ofString a.text = a

instance (a : RawText) : Decidable (IsUtf8 a) := by unfold IsUtf8; infer_instance

/-- texts do not look alike -/
theorem IsUtf8.eq_of_text {a b : RawText} (ha : a.IsUtf8) (hb : b.IsUtf8) (h : a.text = b.text) :
    a = b := by
  rw [← ha, h, hb]

end RawText

end ContractAudit
