import ContractAudit.Proofs.RawTexts

/-!
# What is shown for rows of bytes

A reader of UTF-8 shows a replacement for what is in no character, and begins the next one where a
byte does not go on with a character.  So characters are shown side by side just where their bytes
stand side by side.

* `RawText.GoesOn`: this byte is in a character, but not its first one.
* `RawText.Reader.exists_read_inside`, `RawText.Reader.exists_read_cons`: what is shown next, and
  the bytes it is shown for.

The main statements are `RawText.prefix_toList_text_iff` and `RawText.infix_toList_text_iff`.
-/

namespace ContractAudit.RawText

/-- this byte is in a character, but not its first one -/
def GoesOn (b : UInt8) : Prop := 0x80 ≤ b.toNat ∧ b.toNat ≤ 0xBF

theorem utf8EncodeChar_ofNat {v : Nat} (h : v.isValidChar) :
    String.utf8EncodeChar (Char.ofNat v) = .ofNat (firstByte v) :: lowDigits v (byteShape v).1 := by
  have hlt : v < 1114112 := by
    rcases h with h | h <;> omega
  refine utf8EncodeChar_eq ?_ hlt
  rw [Char.ofNat, dif_pos h]
  rfl

theorem not_goesOn_firstByte {v : Nat} (h : v < 1114112) :
    ¬ GoesOn (UInt8.ofNat (firstByte v)) := by
  rw [GoesOn, UInt8.toNat_ofNat', Nat.mod_eq_of_lt (firstByte_lt h), firstByte, byteShape]
  split_ifs <;> simp only [Nat.reducePow] <;> omega

namespace Reader

/-! ## what is shown next -/

/-- A reader in a character shows one that has its bytes there, or a replacement. -/
theorem exists_read_inside {low high : Nat} (hlow : 0x80 ≤ low) (hhigh : high ≤ 0xBF)
    (value more : Nat) (bs : List UInt8) :
    ∃ c behind rest, bs = behind ++ rest ∧ (∀ b ∈ behind, GoesOn b) ∧
      (inside value low high more).read bs = c :: outside.read rest ∧
      (c = replacement ∨ ∃ v, c = Char.ofNat v ∧ behind = lowDigits v (more + 1) ∧
        v / 64 ^ (more + 1) = value ∧
        low ≤ v / 64 ^ more % 64 + 128 ∧ v / 64 ^ more % 64 + 128 ≤ high) := by
  induction bs generalizing low high value more with
  | nil => exact ⟨replacement, [], [], rfl, List.forall_mem_nil _, rfl, .inl rfl⟩
  | cons b bs ih =>
    rw [read]
    by_cases hb : low ≤ b.toNat ∧ b.toNat ≤ high
    · cases more with
      | zero =>
        rw [step, if_pos hb]
        have hdigit : (value * 64 + b.toNat % 64) % 64 + 128 = b.toNat := by omega
        refine ⟨_, [b], bs, rfl, List.forall_mem_singleton.2 ⟨by omega, by omega⟩, rfl,
          .inr ⟨value * 64 + b.toNat % 64, rfl, ?_, by omega, by omega, by omega⟩⟩
        rw [lowDigits, lowDigits, Nat.pow_zero, Nat.div_one, hdigit, UInt8.ofNat_toNat]
      | succ more =>
        rw [step, if_pos hb]
        obtain ⟨c, behind, rest, rfl, hbehind, hread, hc⟩ :=
          ih (Nat.le_refl _) (Nat.le_refl _) (value * 64 + b.toNat % 64) more
        refine ⟨c, b :: behind, rest, rfl, List.forall_mem_cons.2 ⟨⟨by omega, by omega⟩, hbehind⟩,
          hread, hc.imp_right ?_⟩
        rintro ⟨v, rfl, rfl, hv, -, -⟩
        have hdigit : v / 64 ^ (more + 1) % 64 + 128 = b.toNat := by omega
        refine ⟨v, rfl, ?_, ?_, by omega, by omega⟩
        · rw [lowDigits.eq_2 v (more + 1), hdigit, UInt8.ofNat_toNat]
        · rw [Nat.pow_succ, ← Nat.div_div_eq_div_mul, hv]
          omega
    · -- the character is not finished, and the byte may begin another one
      have hstep : (inside value low high more).step b.toNat =
        (replacement :: (first b.toNat).1, (first b.toNat).2) := if_neg hb
      rw [hstep]
      exact ⟨replacement, [], b :: bs, rfl, List.forall_mem_nil _, rfl, .inl rfl⟩

/-- A reader between two characters shows one that has its bytes there, or a replacement. -/
def ShowsNext (b : UInt8) (bs : List UInt8) : Prop :=
  ∃ c behind rest, bs = behind ++ rest ∧ (∀ b ∈ behind, GoesOn b) ∧
    outside.read (b :: bs) = c :: outside.read rest ∧
    (c = replacement ∨ b :: behind = String.utf8EncodeChar c)

theorem ShowsNext.of_inside {b : UInt8} {low high n mark : Nat} (hlow : 0x80 ≤ low)
    (hhigh : high ≤ 0xBF) (hmark : mark ≤ b.toNat)
    (hfirst : first b.toNat = ([], inside (b.toNat - mark) low high n))
    (hshape : ∀ v, v / 64 ^ (n + 1) = b.toNat - mark → low ≤ v / 64 ^ n % 64 + 128 →
      v / 64 ^ n % 64 + 128 ≤ high → v.isValidChar ∧ byteShape v = (n + 1, mark))
    (bs : List UInt8) : ShowsNext b bs := by
  obtain ⟨c, behind, rest, rfl, hbehind, hread, hc⟩ :=
    exists_read_inside hlow hhigh (b.toNat - mark) n bs
  refine ⟨c, behind, rest, rfl, hbehind, ?_, hc.imp_right ?_⟩
  · rw [read, step, hfirst]
    exact hread
  · rintro ⟨v, rfl, rfl, hv, hle, hge⟩
    obtain ⟨hvalid, hbytes⟩ := hshape v hv hle hge
    rw [utf8EncodeChar_ofNat hvalid, firstByte, hbytes, hv, Nat.sub_add_cancel hmark,
      UInt8.ofNat_toNat]

theorem showsNext (b : UInt8) (bs : List UInt8) : ShowsNext b bs := by
  have hb := b.toNat_lt
  by_cases hone : b.toNat < 0x80
  · refine ⟨Char.ofNat b.toNat, [], bs, rfl, List.forall_mem_nil _, ?_, .inr ?_⟩
    · rw [read, step, first, if_pos hone]
      rfl
    · rw [utf8EncodeChar_ofNat (.inl (by omega)), firstByte, byteShape, if_pos (by omega),
        Nat.pow_zero, Nat.div_one, Nat.add_zero, UInt8.ofNat_toNat]
      rfl
  by_cases hnone : b.toNat < 0xC2 ∨ 0xF5 ≤ b.toNat
  · refine ⟨replacement, [], bs, rfl, List.forall_mem_nil _, ?_, .inl rfl⟩
    have hfirst : first b.toNat = ([replacement], outside) := by grind [first]
    rw [read, step, hfirst]
    rfl
  by_cases htwo : b.toNat < 0xE0
  · have hfirst : first b.toNat = ([], inside (b.toNat - 0xC0) 0x80 0xBF 0) := by grind [first]
    refine .of_inside (Nat.le_refl _) (Nat.le_refl _) (by omega) hfirst (fun v hv _ _ => ?_) bs
    simp only [Nat.zero_add, Nat.pow_one] at hv
    exact ⟨.inl (by omega), by grind [byteShape]⟩
  by_cases hthree : b.toNat < 0xF0
  · have hfirst : first b.toNat = ([], inside (b.toNat - 0xE0)
        (if b.toNat = 0xE0 then 0xA0 else 0x80) (if b.toNat = 0xED then 0x9F else 0xBF) 1) := by
      grind [first]
    refine .of_inside (by split_ifs <;> omega) (by split_ifs <;> omega) (by omega) hfirst
      (fun v hv hle hge => ?_) bs
    simp only [Nat.reduceAdd, Nat.reducePow, Nat.pow_one] at hv hle hge
    exact ⟨by grind, by grind [byteShape]⟩
  · have hfirst : first b.toNat = ([], inside (b.toNat - 0xF0)
        (if b.toNat = 0xF0 then 0x90 else 0x80) (if b.toNat = 0xF4 then 0x8F else 0xBF) 2) := by
      grind [first]
    refine .of_inside (by split_ifs <;> omega) (by split_ifs <;> omega) (by omega) hfirst
      (fun v hv hle hge => ?_) bs
    simp only [Nat.reduceAdd, Nat.reducePow] at hv hle hge
    exact ⟨by grind, by grind [byteShape]⟩

/-- what begins a character is one replacement, and no byte of a surrogate goes on with it -/
example : outside.read [0xF0, 0x9F, 0x41] = [replacement, 'A'] ∧
    outside.read [0xED, 0xA0, 0x80] = [replacement, replacement, replacement] := by decide

/-! ## characters side by side -/

theorem prefix_read_iff {w : List Char} (hw : replacement ∉ w) (bs : List UInt8) :
    w <+: outside.read bs ↔ utf8 w <+: bs := by
  constructor
  · induction w generalizing bs with
    | nil => exact fun _ => List.nil_prefix
    | cons c w ih =>
      intro h
      cases bs with
      | nil =>
        rw [read, List.prefix_nil] at h
        cases h
      | cons b bs =>
        obtain ⟨c', behind, rest, rfl, -, hread, hc⟩ := showsNext b bs
        rw [hread, List.cons_prefix_cons] at h
        obtain ⟨rfl, h⟩ := h
        have hbytes := hc.resolve_left fun h => hw (h ▸ List.mem_cons_self)
        rw [utf8_cons, ← hbytes, ← List.cons_append, List.prefix_append_right_inj]
        exact ih (fun h => hw (List.mem_cons_of_mem c h)) rest h
  · rintro ⟨rest, rfl⟩
    rw [read_utf8_append]
    exact List.prefix_append ..

/-- no character begins with a byte that goes on with one -/
theorem infix_append_iff_of_goesOn (w : List Char) {behind : List UInt8}
    (hbehind : ∀ b ∈ behind, GoesOn b) (rest : List UInt8) :
    utf8 w <:+: behind ++ rest ↔ utf8 w <:+: rest := by
  cases w with
  | nil => exact iff_of_true List.nil_infix List.nil_infix
  | cons c w =>
    induction behind with
    | nil => rfl
    | cons b behind ih =>
      obtain ⟨hb, hbehind⟩ := List.forall_mem_cons.1 hbehind
      rw [List.cons_append, List.infix_cons_iff, ih hbehind, or_iff_right]
      rw [utf8_cons, utf8EncodeChar_eq rfl (toNat_val_lt c), List.cons_append,
        List.cons_prefix_cons]
      rintro ⟨rfl, -⟩
      exact not_goesOn_firstByte (toNat_val_lt c) hb

theorem infix_read_iff {w : List Char} (hw : replacement ∉ w) (bs : List UInt8) :
    w <:+: outside.read bs ↔ utf8 w <:+: bs := by
  induction hn : bs.length using Nat.strong_induction_on generalizing bs with
  | _ n ih =>
    cases bs with
    | nil =>
      rw [read, List.infix_nil, List.infix_nil, ← List.prefix_nil, ← List.prefix_nil]
      exact prefix_read_iff hw []
    | cons b bs =>
      have hprefix := prefix_read_iff hw (b :: bs)
      obtain ⟨c, behind, rest, rfl, hbehind, hread, -⟩ := showsNext b bs
      rw [hread] at hprefix ⊢
      rw [List.infix_cons_iff, List.infix_cons_iff, hprefix,
        infix_append_iff_of_goesOn w hbehind, ih rest.length (by grind) rest rfl]

end Reader

/-! ## characters of the text that is shown -/

theorem prefix_toList_text_iff {w : List Char} (hw : replacement ∉ w) (a : RawText) :
    w <+: a.text.toList ↔ utf8 w <+: a.bytes := by
  rw [text, String.toList_ofList, Reader.prefix_read_iff hw]

theorem infix_toList_text_iff {w : List Char} (hw : replacement ∉ w) (a : RawText) :
    w <:+: a.text.toList ↔ utf8 w <:+: a.bytes := by
  rw [text, String.toList_ofList, Reader.infix_read_iff hw]

end ContractAudit.RawText
