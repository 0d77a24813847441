import Mathlib
import ContractAudit.Json.Numeral
import ContractAudit.Json.Reader

/-!
# Numbers as words

* `Text.ofDigits_toDigits`: the digits of a number spell it.
* `Json.IsNumeral l`: `l` is the spelling of a number: a sign, digits, a fraction and an exponent.
* `Json.lexNumber_of_isNumeral`: such a spelling is read as far as it goes.
* `Json.isUnsigned_toDigits`: the digits of a whole number are one, without a sign.
* `Json.nat?_ofNat`, `Json.int?_ofInt`: and read back if they are within the bounds.
* `Json.le_of_nat?`, `Json.bounds_of_int?`: nothing is read that is not.
-/

namespace ContractAudit

namespace Text

theorem isDigit_eq_isDigit (c : Char) : isDigit c = c.isDigit := by
  rw [isDigit, Char.isDigit, Bool.eq_iff_iff]
  simp [Char.le_def]

/-! ## digits -/

/-- every character is a digit -/
def AllDigits (ds : List Char) : Prop := ∀ c ∈ ds, isDigit c

theorem AllDigits.tail {c : Char} {ds : List Char} (h : AllDigits (c :: ds)) : AllDigits ds :=
  fun d hd => h d (List.mem_cons_of_mem c hd)

theorem AllDigits.append {ds es : List Char} (hd : AllDigits ds) (he : AllDigits es) :
    AllDigits (ds ++ es) := fun c hc => (List.mem_append.1 hc).elim (hd c) (he c)

theorem allDigits_zeros (n : Nat) : AllDigits (List.replicate n '0') := by
  intro c hc
  rw [List.eq_of_mem_replicate hc]
  decide

theorem allDigits_toDigits (n : Nat) : AllDigits (Nat.toDigits 10 n) := fun c hc => by
  rw [isDigit_eq_isDigit]
  exact Nat.isDigit_of_mem_toDigits (by decide) (by decide) hc

theorem ofDigits_eq_ofDigitChars (ds : List Char) : ofDigits ds = Nat.ofDigitChars 10 ds 0 := by
  rw [ofDigits, Nat.ofDigitChars_eq_foldl]
  congr 1
  funext n c
  rw [Nat.mul_comm]
  rfl

theorem ofDigits_toDigits (n : Nat) : ofDigits (Nat.toDigits 10 n) = n := by
  rw [ofDigits_eq_ofDigitChars, Nat.ofDigitChars_ten_toDigits]

theorem ofDigits_append (ds es : List Char) :
    ofDigits (ds ++ es) = 10 ^ es.length * ofDigits ds + ofDigits es := by
  simp only [ofDigits_eq_ofDigitChars]
  rw [Nat.ofDigitChars_append, Nat.ofDigitChars_eq_ofDigitChars_zero]

theorem ofDigits_zeros_append (n : Nat) (ds : List Char) :
    ofDigits (List.replicate n '0' ++ ds) = ofDigits ds := by
  simp only [ofDigits_eq_ofDigitChars]
  rw [Nat.ofDigitChars_append, Nat.ofDigitChars_replicate_zero, Nat.mul_zero]

/-- digits spell less than the power of ten that has one digit more -/
theorem ofDigits_lt {ds : List Char} (h : AllDigits ds) : ofDigits ds < 10 ^ ds.length := by
  induction ds with
  | nil => decide
  | cons c ds ih =>
    have hc : ofDigits [c] < 10 := by
      have hc := h c List.mem_cons_self
      rw [isDigit_eq_isDigit] at hc
      simp only [Char.isDigit, Bool.and_eq_true, decide_eq_true_eq] at hc
      show 0 * 10 + (c.toNat - 48) < 10
      have : c.toNat ≤ 57 := hc.2
      omega
    have ih := ih h.tail
    rw [← List.singleton_append, ofDigits_append, List.length_append, Nat.pow_add,
      List.length_singleton, Nat.pow_one]
    calc 10 ^ ds.length * ofDigits [c] + ofDigits ds
        < 10 ^ ds.length * ofDigits [c] + 10 ^ ds.length := Nat.add_lt_add_left ih _
      _ = 10 ^ ds.length * (ofDigits [c] + 1) := by rw [Nat.mul_add, Nat.mul_one]
      _ ≤ 10 ^ ds.length * 10 := Nat.mul_le_mul_left _ hc
      _ = 10 * 10 ^ ds.length := Nat.mul_comm _ _

/-- the digits of a number that is not zero do not begin with zero -/
theorem toDigits_eq_cons {n : Nat} (hn : n ≠ 0) :
    ∃ c ds, Nat.toDigits 10 n = c :: ds ∧ c ≠ '0' := by
  induction n using Nat.strongRecOn with
  | ind n ih =>
    rw [Nat.toDigits_eq_if (by decide)]
    split
    · exact ⟨_, [], rfl, fun h => hn (Nat.digitChar_eq_zero.1 h)⟩
    · obtain ⟨c, ds, h, hc⟩ := ih (n / 10) (by omega) (by omega)
      exact ⟨c, ds ++ [(n % 10).digitChar], by rw [h, List.cons_append], hc⟩

/-- no digit stands at the beginning -/
def NoDigitFirst (s : List Char) : Prop := ∀ c ∈ s.head?, ¬ isDigit c

theorem takeWhile_isDigit_append {ds s : List Char} (hd : AllDigits ds) (hs : NoDigitFirst s) :
    (ds ++ s).takeWhile isDigit = ds ∧ (ds ++ s).dropWhile isDigit = s := by
  induction ds with
  | nil =>
    cases s with
    | nil => exact ⟨rfl, rfl⟩
    | cons c s =>
      have hc : ¬ isDigit c := hs c rfl
      exact ⟨List.takeWhile_cons_of_neg hc, List.dropWhile_cons_of_neg hc⟩
  | cons c ds ih =>
    have hc := hd c List.mem_cons_self
    obtain ⟨htake, hdrop⟩ := ih hd.tail
    rw [List.cons_append, List.takeWhile_cons_of_pos hc, List.dropWhile_cons_of_pos hc, htake]
    exact ⟨rfl, hdrop⟩

end Text

namespace Json

open Text

/-! ## spellings -/

/-- one zero, or digits that do not begin with zero -/
def IsWhole (ds : List Char) : Prop :=
  ds = ['0'] ∨ ∃ c cs, ds = c :: cs ∧ c ≠ '0' ∧ AllDigits (c :: cs)

/-- a point and digits, or nothing -/
def IsFraction (l : List Char) : Prop := l = [] ∨ ∃ ds, l = '.' :: ds ∧ ds ≠ [] ∧ AllDigits ds

/-- the mark of an exponent, a sign if need be, and digits, or nothing -/
def IsExponent (l : List Char) : Prop :=
  l = [] ∨ ∃ mark sign ds, l = mark :: (sign ++ ds) ∧ (mark = 'e' ∨ mark = 'E') ∧
    (sign = [] ∨ sign = ['+'] ∨ sign = ['-']) ∧ ds ≠ [] ∧ AllDigits ds

/-- the spelling of a number without a sign -/
def IsUnsigned (l : List Char) : Prop :=
  ∃ whole fraction exponent, l = whole ++ fraction ++ exponent ∧ IsWhole whole ∧
    IsFraction fraction ∧ IsExponent exponent

/-- the spelling of a number -/
def IsNumeral (l : List Char) : Prop := IsUnsigned l ∨ ∃ l', l = '-' :: l' ∧ IsUnsigned l'

/-- what a number ends before -/
def EndsNumber (s : List Char) : Prop :=
  ∀ c ∈ s.head?, ¬ isDigit c ∧ c ≠ '.' ∧ c ≠ 'e' ∧ c ≠ 'E'

theorem EndsNumber.noDigitFirst {s : List Char} (h : EndsNumber s) : NoDigitFirst s :=
  fun c hc => (h c hc).1

theorem spanDigits_append {ds s : List Char} (hd : AllDigits ds) (hs : NoDigitFirst s) :
    spanDigits (ds ++ s) = (ds, s) := by
  obtain ⟨htake, hdrop⟩ := takeWhile_isDigit_append hd hs
  rw [spanDigits, htake, hdrop]

theorem lexWhole_append {ds s : List Char} (hd : IsWhole ds) (hs : NoDigitFirst s) :
    lexWhole (ds ++ s) = some (ds, s) := by
  obtain rfl | ⟨c, cs, rfl, hc, hd⟩ := hd
  · rfl
  · have hspan := spanDigits_append hd hs
    rw [List.cons_append] at hspan ⊢
    rw [lexWhole]
    · rw [hspan]
    · rintro r h
      exact hc (List.cons.inj h).1

theorem lexFraction_append {l s : List Char} (hl : IsFraction l) (hs : NoDigitFirst s)
    (hpoint : l = [] → ∀ c ∈ s.head?, c ≠ '.') : lexFraction (l ++ s) = some (l, s) := by
  obtain rfl | ⟨ds, rfl, hne, hd⟩ := hl
  · rw [List.nil_append, lexFraction]
    rintro r rfl
    exact hpoint rfl '.' rfl rfl
  · rw [List.cons_append, lexFraction, spanDigits_append hd hs]
    cases ds with
    | nil => exact absurd rfl hne
    | cons d ds => rfl

theorem lexExponent_append {l s : List Char} (hl : IsExponent l) (hs : EndsNumber s) :
    lexExponent (l ++ s) = some (l, s) := by
  obtain rfl | ⟨mark, sign, ds, rfl, hmark, hsign, hne, hd⟩ := hl
  · cases s with
    | nil => rfl
    | cons c s =>
      obtain ⟨-, -, he, hE⟩ := hs c rfl
      show (if c = 'e' ∨ c = 'E' then _ else some ([], c :: s)) = _
      rw [if_neg (not_or.2 ⟨he, hE⟩)]
  · have hspan := spanDigits_append hd hs.noDigitFirst
    obtain ⟨d, ds, rfl⟩ := List.exists_cons_of_ne_nil hne
    simp only [List.cons_append, List.append_assoc, lexExponent, if_pos hmark] at hspan ⊢
    rcases hsign with rfl | rfl | rfl
    · -- without a sign the digits follow the mark at once
      have hne : ∀ c : Char, ¬ isDigit c → d ≠ c := by
        rintro c hc rfl
        exact hc (hd d List.mem_cons_self)
      have hplus := hne '+' (by decide)
      have hminus := hne '-' (by decide)
      simp [hplus, hminus, hspan]
    · simp [hspan]
    · simp [hspan]

theorem lexUnsigned_append {l s : List Char} (hl : IsUnsigned l) (hs : EndsNumber s) :
    lexUnsigned (l ++ s) = some (l, s) := by
  obtain ⟨whole, fraction, exponent, rfl, hwhole, hfraction, hexponent⟩ := hl
  have hafter : NoDigitFirst (exponent ++ s) := by
    obtain rfl | ⟨mark, sign, ds, rfl, hmark, -⟩ := hexponent
    · exact hs.noDigitFirst
    · rintro c ⟨⟩
      rcases hmark with rfl | rfl <;> decide
  have hpoint : ∀ c ∈ (exponent ++ s).head?, c ≠ '.' := by
    obtain rfl | ⟨mark, sign, ds, rfl, hmark, -⟩ := hexponent
    · exact fun c hc => (hs c hc).2.1
    · rintro c ⟨⟩
      rcases hmark with rfl | rfl <;> decide
  have hdigits : NoDigitFirst (fraction ++ (exponent ++ s)) := by
    obtain rfl | ⟨ds, rfl, -⟩ := hfraction
    · exact hafter
    · rintro c ⟨⟩
      decide
  rw [List.append_assoc, List.append_assoc, lexUnsigned, lexWhole_append hwhole hdigits]
  show (lexFraction (fraction ++ (exponent ++ s)) >>= fun x => lexExponent x.2 >>= fun y =>
    some (whole ++ x.1 ++ y.1, y.2)) = _
  rw [lexFraction_append hfraction hafter fun _ => hpoint]
  show (lexExponent (exponent ++ s) >>= fun y => some (whole ++ fraction ++ y.1, y.2)) = _
  rw [lexExponent_append hexponent hs]
  rfl

/-- the spelling of a number begins with a sign or a digit -/
theorem IsUnsigned.eq_cons {l : List Char} (hl : IsUnsigned l) : ∃ c r, l = c :: r ∧ isDigit c := by
  obtain ⟨whole, fraction, exponent, rfl, rfl | ⟨c, cs, rfl, -, hd⟩, -⟩ := hl
  · exact ⟨'0', _, rfl, by decide⟩
  · exact ⟨c, _, rfl, hd c List.mem_cons_self⟩

/-- the spelling of a number is read as far as it goes -/
theorem lexNumber_of_isNumeral {l s : List Char} (hl : IsNumeral l) (hs : EndsNumber s) :
    lexNumber (l ++ s) = some (l, s) := by
  rcases hl with hl | ⟨l, rfl, hl⟩
  · have hfirst := lexUnsigned_append hl hs
    obtain ⟨c, r, rfl, hc⟩ := hl.eq_cons
    rw [lexNumber]
    · exact hfirst
    · rintro r' h
      rw [(List.cons.inj h).1] at hc
      exact absurd hc (by decide)
  · rw [List.cons_append, lexNumber, lexUnsigned_append hl hs]
    rfl

/-! ## whole numbers -/

theorem isWhole_toDigits (n : Nat) : IsWhole (Nat.toDigits 10 n) := by
  by_cases hn : n = 0
  · subst hn
    exact .inl rfl
  · obtain ⟨c, ds, h, hc⟩ := toDigits_eq_cons hn
    exact .inr ⟨c, ds, h, hc, h ▸ allDigits_toDigits n⟩

theorem isUnsigned_toDigits (n : Nat) : IsUnsigned (Nat.toDigits 10 n) :=
  ⟨_, [], [], by rw [List.append_nil, List.append_nil], isWhole_toDigits n, .inl rfl, .inl rfl⟩

theorem ofLexeme_toDigits (n : Nat) :
    Numeral.ofLexeme (Nat.toDigits 10 n) = ⟨false, Nat.toDigits 10 n, [], 0, true⟩ := by
  obtain ⟨htake, hdrop⟩ := takeWhile_isDigit_append (allDigits_toDigits n) (s := [])
    fun _ h => nomatch h
  rw [List.append_nil] at htake hdrop
  have hsign : ((Nat.toDigits 10 n).head? == some '-') = false := by
    rw [beq_eq_false_iff_ne]
    intro h
    exact absurd (allDigits_toDigits n '-' (List.mem_of_mem_head? h)) (by decide)
  rw [Numeral.ofLexeme, hsign]
  simp only [Bool.false_eq_true, if_false, htake, hdrop]
  rfl

theorem ofLexeme_minus_toDigits (n : Nat) :
    Numeral.ofLexeme ('-' :: Nat.toDigits 10 n) = ⟨true, Nat.toDigits 10 n, [], 0, true⟩ := by
  obtain ⟨htake, hdrop⟩ := takeWhile_isDigit_append (allDigits_toDigits n) (s := [])
    fun _ h => nomatch h
  rw [List.append_nil] at htake hdrop
  rw [Numeral.ofLexeme]
  simp only [List.head?_cons, beq_self_eq_true, if_true, List.drop_one, List.tail_cons, htake,
    hdrop]
  rfl

/-- a whole number is read back if it is within the bounds -/
theorem int?_ofInt (lo hi n : Int) :
    (ofInt n).int? lo hi = if lo ≤ n ∧ n ≤ hi then some n else none := by
  cases n with
  | ofNat n =>
    rw [ofInt, ofNat, int?, ofLexeme_toDigits, Numeral.int?]
    simp only [ofDigits_toDigits]
    rfl
  | negSucc n =>
    rw [ofInt, int?, ofLexeme_minus_toDigits, Numeral.int?]
    simp only [ofDigits_toDigits]
    rfl

/-- a natural number is read back if it is not too large -/
theorem nat?_ofNat (hi n : Nat) : (ofNat n).nat? hi = if n ≤ hi then some n else none := by
  have h := int?_ofInt 0 hi (Int.ofNat n)
  rw [ofInt] at h
  rw [nat?, h]
  by_cases hn : n ≤ hi
  · rw [if_pos hn, if_pos ⟨Int.natCast_nonneg n, Int.ofNat_le.2 hn⟩]
    rfl
  · rw [if_neg hn, if_neg fun h => hn (Int.ofNat_le.1 h.2)]
    rfl

theorem bounds_of_int? {lo hi n : Int} {x : Json} (h : x.int? lo hi = some n) :
    lo ≤ n ∧ n ≤ hi := by
  cases x with
  | number l =>
    rw [int?] at h
    split at h
    · split at h
      · rename_i hbounds
        exact Option.some_inj.1 h ▸ hbounds
      · cases h
    · cases h
  | _ => cases h

theorem le_of_nat? {hi n : Nat} {x : Json} (h : x.nat? hi = some n) : n ≤ hi := by
  obtain ⟨i, hi', rfl⟩ := Option.map_eq_some_iff.1 h
  obtain ⟨hlo, hhi⟩ := bounds_of_int? hi'
  omega

end Json

end ContractAudit
