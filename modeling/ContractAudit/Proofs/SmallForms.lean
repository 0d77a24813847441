import Mathlib
import ContractAudit.Text.Factor
import ContractAudit.Text.Lowercase

/-!
# Small forms and the letters of ASCII

The lower case of a text is made character by character, but the parts it is made of need not be
single characters, and two characters outside ASCII have small forms that begin in ASCII.  Here it
is said which words of ASCII can nevertheless be searched for in lower case.

* `SmallForm c w`: what the small form `w` of a character `c` can look like.
* `SmallForms s t`: the text `t` is made of small forms of the characters of `s`, one after the
  other.
* `smallForms_lowercase`: the lower case of a text is made of small forms.
* `EqualUpToCase v w`: equality up to the case of the letters of ASCII.
* `isPlain m`: `m` is a word of ASCII without k that does not end with i.
* `startsWith_lowercase_iff`: what a text begins with in lower case.

The main statements are `hasFactor_lowercase_iff` and `hasFactor_lowercase_concat_i_iff`.
-/

namespace ContractAudit.Text

/-! ## one character -/

/-- what the small form of a character can look like, whatever stands around it -/
inductive SmallForm : Char → List Char → Prop
  | ascii {c : Char} : c.toNat < 128 → SmallForm c [lowerAscii c]
  | dottedI : SmallForm '\u0130' ['i', '\u0307']
  | kelvin : SmallForm '\u212A' ['k']
  | other {c d : Char} : 128 ≤ c.toNat → 128 ≤ d.toNat → SmallForm c [d]

theorem findLowerRun_eq_some {runs : Array LowerRun} {n lo hi : Nat} {r : LowerRun}
    (h : findLowerRun runs n lo hi = some r) : r ∈ runs ∧ r.first ≤ n ∧ n ≤ r.last := by
  fun_induction findLowerRun runs n lo hi with
  | case1 => cases h
  | case2 _ _ _ _ _ _ _ ih => exact ih h
  | case3 _ _ _ _ _ _ _ _ ih => exact ih h
  | case4 lo hi _ mid r' hget hfirst hlast _ =>
    obtain rfl := Option.some.inj h
    exact ⟨Array.mem_of_getElem? hget, Nat.le_of_not_lt hfirst, Nat.le_of_not_lt hlast⟩
  | case5 => cases h
  | case6 => cases h

/-- the small forms of the run are characters outside ASCII -/
def LowerRun.staysOutside (r : LowerRun) : Bool :=
  128 ≤ r.first + r.shift &&
    (r.last + r.shift < 0xD800 || (0xE000 ≤ r.first + r.shift && r.last + r.shift < 0x110000))

/-- but for the Kelvin sign, no letter of the runs has its small form in ASCII -/
theorem staysOutside_of_mem {r : LowerRun} (hr : r ∈ lowerRuns) (hk : r.first ≠ 0x212A) :
    r.staysOutside := by
  have hall : ∀ r ∈ lowerRuns.toList, r.first ≠ 0x212A → r.staysOutside := by decide +kernel
  exact hall r (Array.mem_toList_iff.2 hr) hk

theorem toNat_ofNat_of_staysOutside {r : LowerRun} (h : r.staysOutside) {n : Nat}
    (hfirst : r.first ≤ n) (hlast : n ≤ r.last) :
    128 ≤ (Char.ofNat (n + r.shift).toNat).toNat := by
  simp only [LowerRun.staysOutside, Bool.and_eq_true, Bool.or_eq_true, decide_eq_true_eq] at h
  have hvalid : (n + r.shift).toNat.isValidChar := by
    unfold Nat.isValidChar
    omega
  rw [Char.toNat_ofNat, if_pos hvalid]
  omega

theorem smallForm_lowerChar (c : Char) : SmallForm c (lowerChar c) := by
  unfold lowerChar
  split_ifs with hascii hdotted hkelvin
  · exact .ascii hascii
  · exact hdotted ▸ .dottedI
  · exact hkelvin ▸ .kelvin
  · have hc : 128 ≤ c.toNat := Nat.le_of_not_lt hascii
    split
    · exact .other hc hc
    · rename_i r hrun
      obtain ⟨hr, hfirst, hlast⟩ := findLowerRun_eq_some hrun
      -- the run of the Kelvin sign has no other letter
      have hk : r.first ≠ 0x212A := by
        intro hk
        have hsingle : ∀ r ∈ lowerRuns.toList, r.first = 0x212A → r.last = 0x212A := by
          decide +kernel
        have hend := hsingle r (Array.mem_toList_iff.2 hr) hk
        exact hkelvin (Char.toNat_inj.1 (show c.toNat = 0x212A by omega))
      exact .other hc (toNat_ofNat_of_staysOutside (staysOutside_of_mem hr hk) hfirst hlast)

theorem smallForm_lowerCharBetween (before : List Char) (c : Char) (after : List Char) :
    SmallForm c (lowerCharBetween before c after) := by
  unfold lowerCharBetween
  split_ifs with hsigma hend
  · exact hsigma ▸ .other (by decide) (by decide)
  · exact hsigma ▸ .other (by decide) (by decide)
  · exact smallForm_lowerChar c

/-! ## texts -/

/-- the second text is made of small forms of the characters of the first one -/
inductive SmallForms : List Char → List Char → Prop
  | nil : SmallForms [] []
  | cons {c : Char} {w s t : List Char} :
      SmallForm c w → SmallForms s t → SmallForms (c :: s) (w ++ t)

theorem exists_lowercaseAfter_append (before done a s : List Char) :
    ∃ u, SmallForms a u ∧ lowercaseAfter before done (a ++ s) =
      lowercaseAfter (a.reverse ++ before) (u.reverse ++ done) s := by
  induction a generalizing before done with
  | nil => exact ⟨[], .nil, rfl⟩
  | cons c a ih =>
    obtain ⟨u, hu, heq⟩ := ih (c :: before) ((lowerCharBetween before c (a ++ s)).reverse ++ done)
    refine ⟨_, .cons (smallForm_lowerCharBetween before c (a ++ s)) hu, ?_⟩
    rw [List.cons_append, lowercaseAfter, heq, List.reverse_cons, List.append_assoc,
      List.reverse_append, List.append_assoc]
    rfl

theorem exists_smallForms_lowercaseAfter (before done s : List Char) :
    ∃ t, SmallForms s t ∧ lowercaseAfter before done s = done.reverse ++ t := by
  obtain ⟨t, ht, heq⟩ := exists_lowercaseAfter_append before done s []
  rw [List.append_nil, lowercaseAfter, List.reverse_append, List.reverse_reverse] at heq
  exact ⟨t, ht, heq⟩

theorem smallForms_lowercase (s : List Char) : SmallForms s (lowercase s) := by
  obtain ⟨t, ht, heq⟩ := exists_smallForms_lowercaseAfter [] [] s
  rw [lowercase, heq]
  exact ht

namespace SmallForms

/-- a text of ASCII has its small forms letter by letter -/
theorem eq_map_of_ascii {s t : List Char} (h : SmallForms s t) (hs : ∀ c ∈ s, c.toNat < 128) :
    t = s.map lowerAscii := by
  induction h with
  | nil => rfl
  | @cons c w s t hw _ ih =>
    obtain ⟨hc, hs⟩ := List.forall_mem_cons.1 hs
    cases hw with
    | ascii => rw [ih hs, List.map_cons, List.singleton_append]
    | dottedI => exact absurd hc (by decide)
    | kelvin => exact absurd hc (by decide)
    | other hout => exact absurd hc (Nat.not_lt.2 hout)

/-- the small forms of a text that is put together -/
theorem exists_of_append {a b t : List Char} (h : SmallForms (a ++ b) t) :
    ∃ u v, t = u ++ v ∧ SmallForms a u ∧ SmallForms b v := by
  induction a generalizing t with
  | nil => exact ⟨[], t, rfl, .nil, h⟩
  | cons c a ih =>
    cases h with
    | cons hw h =>
      obtain ⟨u, v, rfl, hu, hv⟩ := ih h
      exact ⟨_, v, (List.append_assoc _ _ _).symm, .cons hw hu, hv⟩

end SmallForms

theorem lowercase_of_ascii {s : List Char} (h : ∀ c ∈ s, c.toNat < 128) :
    lowercase s = s.map lowerAscii := (smallForms_lowercase s).eq_map_of_ascii h

/-! ## words of ASCII -/

theorem lowerAscii_eq_toLower (c : Char) : lowerAscii c = c.toLower := by
  have hupper : ('A' ≤ c ∧ c ≤ 'Z') ↔ c.isUpper := by
    rw [Char.isUpper, decide_eq_true_iff]
    rfl
  unfold lowerAscii
  split_ifs with hc
  · exact (Char.toLower_eq_of_isUpper (hupper.1 hc)).symm
  · exact (Char.toLower_eq_of_not_isUpper (mt hupper.2 hc)).symm

theorem lt_of_lowerAscii_lt {c : Char} (h : (lowerAscii c).toNat < 128) : c.toNat < 128 := by
  unfold lowerAscii at h
  split_ifs at h with hc
  · have hz : c.toNat ≤ 90 := hc.2
    omega
  · exact h

/-- a text that is of ASCII in lower case is of ASCII -/
theorem ascii_of_map_lowerAscii {w v : List Char} (heq : w.map lowerAscii = v)
    (hv : ∀ c ∈ v, c.toNat < 128) : ∀ c ∈ w, c.toNat < 128 := fun _ hc =>
  lt_of_lowerAscii_lt (hv _ (heq ▸ List.mem_map_of_mem hc))

/-- the texts are equal up to the case of the letters of ASCII -/
def EqualUpToCase (v w : List Char) : Prop := v.map Char.toLower = w.map Char.toLower

instance (v w : List Char) : Decidable (EqualUpToCase v w) := by
  unfold EqualUpToCase
  infer_instance

theorem equalUpToCase_iff {v w : List Char} :
    EqualUpToCase v w ↔ v.map lowerAscii = w.map lowerAscii := by
  rw [EqualUpToCase, funext lowerAscii_eq_toLower]

/-- a word of ASCII without k that does not end with i, so that it can stand in small forms only
where every letter is the small form of a character of ASCII -/
def isPlain (m : List Char) : Bool :=
  (m.all fun c => c.toNat < 128 && c != 'k') && m.getLast? != some 'i'

section
variable {c : Char} {m t : List Char}

theorem isPlain_iff :
    isPlain m ↔ (∀ c ∈ m, c.toNat < 128 ∧ c ≠ 'k') ∧ m.getLast? ≠ some 'i' := by
  simp [isPlain]

theorem ascii_of_isPlain (h : isPlain m) : ∀ a ∈ m, a.toNat < 128 := fun a ha =>
  ((isPlain_iff.1 h).1 a ha).1

theorem isPlain_tail (h : isPlain (c :: m)) : isPlain m := by
  obtain ⟨hall, hlast⟩ := isPlain_iff.1 h
  refine isPlain_iff.2 ⟨fun d hd => hall d (List.mem_cons_of_mem c hd), fun hend => hlast ?_⟩
  rw [List.getLast?_cons, hend, Option.getD_some]

theorem not_cons_prefix_of_ascii (hm : ∀ a ∈ m, a.toNat < 128) (hne : m ≠ [])
    (hc : 128 ≤ c.toNat) : ¬ m <+: c :: t := by
  intro hbegin
  obtain ⟨a, m, rfl⟩ := List.exists_cons_of_ne_nil hne
  obtain rfl := (List.cons_prefix_cons.1 hbegin).1
  exact Nat.not_lt.2 hc (hm a List.mem_cons_self)

theorem not_cons_prefix_of_isPlain (h : isPlain m) (hne : m ≠ []) (hc : 128 ≤ c.toNat) :
    ¬ m <+: c :: t := not_cons_prefix_of_ascii (ascii_of_isPlain h) hne hc

end

namespace SmallForms

/-- a plain word that the small forms begin with comes from the beginning of the text -/
theorem exists_beginning_eq {s t m : List Char} (h : SmallForms s t) (hm : isPlain m)
    (hbegin : m <+: t) : ∃ w, w <+: s ∧ w.map lowerAscii = m := by
  induction h generalizing m with
  | nil => exact ⟨[], List.nil_prefix, (List.prefix_nil.1 hbegin).symm⟩
  | @cons c w s t hw _ ih =>
    cases m with
    | nil => exact ⟨[], List.nil_prefix, rfl⟩
    | cons a m =>
      cases hw with
      | ascii =>
        obtain ⟨rfl, hrest⟩ := List.cons_prefix_cons.1 hbegin
        obtain ⟨v, hv, rfl⟩ := ih (isPlain_tail hm) hrest
        exact ⟨c :: v, List.cons_prefix_cons.2 ⟨rfl, hv⟩, rfl⟩
      | dottedI =>
        -- the i is followed by the dot, unless the word ends here
        obtain ⟨rfl, hrest⟩ := List.cons_prefix_cons.1 hbegin
        have hne : m ≠ [] := by
          rintro rfl
          exact (isPlain_iff.1 hm).2 rfl
        exact absurd hrest (not_cons_prefix_of_isPlain (isPlain_tail hm) hne (by decide))
      | kelvin =>
        obtain ⟨rfl, -⟩ := List.cons_prefix_cons.1 hbegin
        exact absurd rfl ((isPlain_iff.1 hm).1 'k' List.mem_cons_self).2
      | other _ hd =>
        exact absurd hbegin (not_cons_prefix_of_isPlain hm (List.cons_ne_nil a m) hd)

/-- a plain word that stands in the small forms comes from a factor of the text -/
theorem exists_factor_eq {s t m : List Char} (h : SmallForms s t) (hm : isPlain m)
    (hfactor : m <:+: t) : ∃ w, w <:+: s ∧ w.map lowerAscii = m := by
  induction h with
  | nil => exact ⟨[], List.nil_infix, (List.infix_nil.1 hfactor).symm⟩
  | @cons c w s t hw ht ih =>
    have hlater (hrest : m <:+: t) : ∃ w, w <:+: c :: s ∧ w.map lowerAscii = m := by
      obtain ⟨v, hv, hmap⟩ := ih hrest
      exact ⟨v, List.infix_cons hv, hmap⟩
    have hhere (hbegin : m <+: w ++ t) : ∃ w, w <:+: c :: s ∧ w.map lowerAscii = m := by
      obtain ⟨v, hv, hmap⟩ := (SmallForms.cons hw ht).exists_beginning_eq hm hbegin
      exact ⟨v, hv.isInfix, hmap⟩
    cases hw with
    | dottedI =>
      rcases List.infix_cons_iff.1 hfactor with hbegin | hrest
      · exact hhere hbegin
      · rcases List.infix_cons_iff.1 hrest with hbegin | hrest
        · -- no plain word but the empty one begins with the dot
          have hnil : m = [] := by
            by_contra hne
            exact not_cons_prefix_of_isPlain hm hne (by decide) hbegin
          exact ⟨[], List.nil_infix, hnil.symm⟩
        · exact hlater hrest
    | _ => exact (List.infix_cons_iff.1 hfactor).elim hhere hlater

/-- the small forms of a text hold those of its factors in ASCII -/
theorem infix_map_lowerAscii {s t w : List Char} (h : SmallForms s t) (hw : ∀ c ∈ w, c.toNat < 128)
    (hfactor : w <:+: s) : w.map lowerAscii <:+: t := by
  obtain ⟨a, b, rfl⟩ := hfactor
  obtain ⟨_, v, rfl, hleft, -⟩ := h.exists_of_append
  obtain ⟨u, x, rfl, -, hx⟩ := hleft.exists_of_append
  exact ⟨u, v, by rw [hx.eq_map_of_ascii hw]⟩

end SmallForms

/-- **Words in lower case.**  In the lower case of a text stands the lower case of a plain word if
and only if the text has a factor that is equal to the word up to the case of ASCII: neither longer
small forms nor small forms that depend on their place make or hide one. -/
theorem hasFactor_lowercase_iff {m s : List Char} (hm : isPlain (m.map lowerAscii)) :
    hasFactor (lowercase m) (lowercase s) ↔ ∃ w, w <:+: s ∧ EqualUpToCase w m := by
  have hsmall : ∀ c ∈ m.map lowerAscii, c.toNat < 128 := fun c hc =>
    ((isPlain_iff.1 hm).1 c hc).1
  have hascii : ∀ c ∈ m, c.toNat < 128 := fun c hc =>
    lt_of_lowerAscii_lt (hsmall _ (List.mem_map_of_mem hc))
  rw [hasFactor_iff, lowercase_of_ascii hascii]
  simp only [equalUpToCase_iff]
  constructor
  · exact (smallForms_lowercase s).exists_factor_eq hm
  · rintro ⟨w, hw, heq⟩
    rw [← heq]
    refine (smallForms_lowercase s).infix_map_lowerAscii (fun c hc => ?_) hw
    exact lt_of_lowerAscii_lt (hsmall _ (heq ▸ List.mem_map_of_mem hc))

/-- in lower case a text begins with a plain word if and only if it begins with a word that is equal
to it up to the case of ASCII -/
theorem startsWith_lowercase_iff {m s : List Char} (hm : isPlain m)
    (hsmall : m.map lowerAscii = m) :
    startsWith m (lowercase s) ↔ ∃ w, w <+: s ∧ EqualUpToCase w m := by
  rw [startsWith_iff]
  simp only [equalUpToCase_iff, hsmall]
  constructor
  · exact (smallForms_lowercase s).exists_beginning_eq hm
  · rintro ⟨w, ⟨b, rfl⟩, heq⟩
    obtain ⟨u, v, h, hu, -⟩ := (smallForms_lowercase (w ++ b)).exists_of_append
    have hascii := ascii_of_map_lowerAscii heq (ascii_of_isPlain hm)
    rw [h, hu.eq_map_of_ascii hascii, heq]
    exact List.prefix_append m v

/-! ## words that end with i -/

theorem ascii_concat_i {m : List Char} (hm : isPlain m) : ∀ a ∈ m ++ ['i'], a.toNat < 128 := by
  rw [List.forall_mem_append]
  exact ⟨ascii_of_isPlain hm, List.forall_mem_singleton.2 (by decide)⟩

namespace SmallForms

/-- the i at the end of a word is the small form of an i of ASCII or of the I with a dot -/
theorem exists_beginning_concat_i {s t m : List Char} (h : SmallForms s t) (hm : isPlain m)
    (hbegin : m ++ ['i'] <+: t) :
    ∃ w c, w ++ [c] <+: s ∧ w.map lowerAscii = m ∧ (lowerAscii c = 'i' ∨ c = '\u0130') := by
  induction h generalizing m with
  | nil => exact absurd (List.prefix_nil.1 hbegin) (by simp)
  | @cons c w s t hw _ ih =>
    cases m with
    | nil =>
      cases hw with
      | ascii =>
        exact ⟨[], c, ⟨s, rfl⟩, rfl, .inl (List.cons_prefix_cons.1 hbegin).1.symm⟩
      | dottedI => exact ⟨[], '\u0130', ⟨s, rfl⟩, rfl, .inr rfl⟩
      | kelvin => exact absurd (List.cons_prefix_cons.1 hbegin).1 (by decide)
      | other _ hd =>
        obtain ⟨rfl, -⟩ := List.cons_prefix_cons.1 hbegin
        exact absurd hd (by decide)
    | cons a m =>
      rw [List.cons_append] at hbegin
      cases hw with
      | ascii =>
        obtain ⟨rfl, hrest⟩ := List.cons_prefix_cons.1 hbegin
        obtain ⟨v, d, hv, rfl, hd⟩ := ih (isPlain_tail hm) hrest
        exact ⟨c :: v, d, List.cons_prefix_cons.2 ⟨rfl, hv⟩, rfl, hd⟩
      | dottedI =>
        obtain ⟨rfl, hrest⟩ := List.cons_prefix_cons.1 hbegin
        exact absurd hrest (not_cons_prefix_of_ascii (ascii_concat_i (isPlain_tail hm)) (by simp)
          (by decide))
      | kelvin =>
        obtain ⟨rfl, -⟩ := List.cons_prefix_cons.1 hbegin
        exact absurd rfl ((isPlain_iff.1 hm).1 'k' List.mem_cons_self).2
      | other _ hd =>
        exact absurd hbegin (not_cons_prefix_of_ascii (m := a :: (m ++ ['i'])) (ascii_concat_i hm)
          (by simp) hd)

theorem exists_factor_concat_i {s t m : List Char} (h : SmallForms s t) (hm : isPlain m)
    (hfactor : m ++ ['i'] <:+: t) :
    ∃ w c, w ++ [c] <:+: s ∧ w.map lowerAscii = m ∧ (lowerAscii c = 'i' ∨ c = '\u0130') := by
  induction h with
  | nil => exact absurd (List.infix_nil.1 hfactor) (by simp)
  | @cons c w s t hw ht ih =>
    have hlater (hrest : m ++ ['i'] <:+: t) : ∃ w d, w ++ [d] <:+: c :: s ∧
        w.map lowerAscii = m ∧ (lowerAscii d = 'i' ∨ d = '\u0130') := by
      obtain ⟨v, d, hv, h⟩ := ih hrest
      exact ⟨v, d, List.infix_cons hv, h⟩
    have hhere (hbegin : m ++ ['i'] <+: w ++ t) : ∃ w d, w ++ [d] <:+: c :: s ∧
        w.map lowerAscii = m ∧ (lowerAscii d = 'i' ∨ d = '\u0130') := by
      obtain ⟨v, d, hv, h⟩ := (SmallForms.cons hw ht).exists_beginning_concat_i hm hbegin
      exact ⟨v, d, hv.isInfix, h⟩
    cases hw with
    | dottedI =>
      rcases List.infix_cons_iff.1 hfactor with hbegin | hrest
      · exact hhere hbegin
      · rcases List.infix_cons_iff.1 hrest with hbegin | hrest
        · exact absurd hbegin (not_cons_prefix_of_ascii (ascii_concat_i hm) (by simp) (by decide))
        · exact hlater hrest
    | _ => exact (List.infix_cons_iff.1 hfactor).elim hhere hlater

end SmallForms

/-- the I with a dot has its small form wherever it stands -/
theorem exists_lowercase_append_dottedI (a b : List Char) : ∃ u t, SmallForms a u ∧
    lowercase (a ++ '\u0130' :: b) = u ++ 'i' :: '\u0307' :: t := by
  obtain ⟨u, hu, heq⟩ := exists_lowercaseAfter_append [] [] a ('\u0130' :: b)
  have hsmall (before : List Char) : lowerCharBetween before '\u0130' b = ['i', '\u0307'] := by
    rw [lowerCharBetween, if_neg (by decide)]
    decide
  rw [lowercaseAfter, hsmall] at heq
  obtain ⟨t, -, heq'⟩ := exists_smallForms_lowercaseAfter ('\u0130' :: (a.reverse ++ []))
    (['i', '\u0307'].reverse ++ (u.reverse ++ [])) b
  refine ⟨u, t, hu, ?_⟩
  rw [lowercase, heq, heq']
  simp

/-- **Words that end with i in lower case.**  Such a word stands there if and only if the text has a
factor that is equal to it up to the case of ASCII, or one that ends with the I with a dot in the
place of the i. -/
theorem hasFactor_lowercase_concat_i_iff {m s : List Char} (hm : isPlain m)
    (hsmall : m.map lowerAscii = m) :
    hasFactor (m ++ ['i']) (lowercase s) ↔ (∃ w, w <:+: s ∧ EqualUpToCase w (m ++ ['i'])) ∨
      ∃ w, w ++ ['\u0130'] <:+: s ∧ EqualUpToCase w m := by
  have hword : (m ++ ['i']).map lowerAscii = m ++ ['i'] := by
    rw [List.map_append, hsmall]
    rfl
  rw [hasFactor_iff]
  simp only [equalUpToCase_iff, hword, hsmall]
  constructor
  · intro h
    obtain ⟨w, c, hw, hmap, hc | rfl⟩ := (smallForms_lowercase s).exists_factor_concat_i hm h
    · refine .inl ⟨w ++ [c], hw, ?_⟩
      rw [List.map_append, hmap, List.map_singleton, hc]
    · exact .inr ⟨w, hw, hmap⟩
  · rintro (⟨w, hw, heq⟩ | ⟨w, ⟨a, b, rfl⟩, heq⟩)
    · rw [← heq]
      exact (smallForms_lowercase s).infix_map_lowerAscii
        (ascii_of_map_lowerAscii heq (ascii_concat_i hm)) hw
    · obtain ⟨u, t, hu, h⟩ := exists_lowercase_append_dottedI (a ++ w) b
      obtain ⟨front, v, rfl, -, hv⟩ := hu.exists_of_append
      have hv := hv.eq_map_of_ascii (ascii_of_map_lowerAscii heq (ascii_of_isPlain hm))
      rw [heq] at hv
      have htext : a ++ (w ++ ['\u0130']) ++ b = a ++ w ++ '\u0130' :: b := by simp
      rw [htext, h, hv]
      exact ⟨front, '\u0307' :: t, by simp⟩

end ContractAudit.Text
