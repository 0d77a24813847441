import Mathlib.Data.List.Basic
import Mathlib.Data.List.Infix
import Mathlib.Data.List.TakeWhile
import ContractAudit.Proofs.Patterns
import ContractAudit.Text.Lines

/-!
# Factors of texts that are put together

Where a text is put together from others, a factor may reach over the place where they meet.  Two
kinds of factors cannot: a word without a line feed does not reach over one, and a word that begins
and ends with something other than white space does not reach into the white space around a line.

* `whiteSpace`, `isBlank_iff`: white space character by character.
* `infix_joined_iff`: factors of texts joined by a line feed.
* `pair_infix_append_iff`: two characters side by side.
* `IsFramed w`: the word begins and ends with something other than white space.
* `IsFramed.infix_around_iff`: factors of lines with white space around them.
* `exists_trim_eq`, `isFramed_trim`: a line is what is left of it when it is trimmed, with white
  space around it, and what is left is framed.
* `trim_around`, `IsFramed.infix_trim_iff`: lines with white space around them when they are
  trimmed.
* `LinePattern.IsFramed`: the pattern reads framed words only, so that white space around a line
  does not matter to it (`LinePattern.IsFramed.firesOn_around`).
-/

namespace ContractAudit

namespace Text

/-! ## white space -/

/-- the characters of the Unicode property White_Space -/
def whiteSpace : List Char :=
  ['\t', '\n', '\x0b', '\x0c', '\r', ' ', '\u0085', '\u00a0', '\u1680', '\u2000', '\u2001',
   '\u2002', '\u2003', '\u2004', '\u2005', '\u2006', '\u2007', '\u2008', '\u2009', '\u200a',
   '\u2028', '\u2029', '\u202f', '\u205f', '\u3000']

theorem isBlank_iff {c : Char} : isBlank c ↔ c ∈ whiteSpace := by
  have heq (d : Char) : c = d ↔ c.toNat = d.toNat := Char.toNat_inj.symm
  simp only [whiteSpace, List.mem_cons, List.not_mem_nil, or_false, heq, Char.reduceToNat,
    isBlank, Bool.or_eq_true, Bool.and_eq_true, decide_eq_true_eq, beq_iff_eq]
  omega

/-! ## words -/

/-- a word without a line feed stands in joined texts where it stands in one of them -/
theorem infix_joined_iff {w a b : List Char} (hw : '\n' ∉ w) :
    w <:+: a ++ '\n' :: b ↔ w <:+: a ∨ w <:+: b := by
  constructor
  · intro h
    rcases List.infix_append_iff.1 h with h | h | ⟨u, v, rfl, hu, hv⟩
    · exact .inl h
    · refine .inr ?_
      rcases List.infix_cons_iff.1 h with h | h
      · rcases List.prefix_cons_iff.1 h with rfl | ⟨v, rfl, -⟩
        · exact List.nil_infix
        · exact absurd List.mem_cons_self hw
      · exact h
    · rcases List.prefix_cons_iff.1 hv with rfl | ⟨v, rfl, -⟩
      · exact .inl ((List.append_nil u).symm ▸ hu.isInfix)
      · exact absurd (List.mem_append_right u List.mem_cons_self) hw
  · rintro (h | h)
    · exact h.trans (List.prefix_append a _).isInfix
    · exact h.trans ((List.suffix_cons '\n' b).trans (List.suffix_append a _)).isInfix

/-- two characters stand side by side in a text that is put together where they do so in a part of
it, or where the parts meet between them -/
theorem pair_infix_append_iff {c d : Char} {a b : List Char} :
    [c, d] <:+: a ++ b ↔
      [c, d] <:+: a ∨ [c, d] <:+: b ∨ a.getLast? = some c ∧ b.head? = some d := by
  constructor
  · intro h
    rcases List.infix_append_iff.1 h with h | h | ⟨u, v, huv, hu, hv⟩
    · exact .inl h
    · exact .inr (.inl h)
    · rcases List.append_eq_cons_iff.1 huv.symm with ⟨rfl, rfl⟩ | ⟨u, rfl, hd⟩
      · exact .inr (.inl hv.isInfix)
      · rcases List.append_eq_cons_iff.1 hd.symm with ⟨rfl, rfl⟩ | ⟨u, rfl, hnil⟩
        · obtain ⟨front, rfl⟩ := hu
          obtain ⟨rest, rfl⟩ := hv
          exact .inr (.inr ⟨List.getLast?_concat, rfl⟩)
        · obtain ⟨rfl, rfl⟩ := List.append_eq_nil_iff.1 hnil.symm
          exact .inl hu.isInfix
  · rintro (h | h | ⟨hlast, hhead⟩)
    · exact h.trans (List.prefix_append a b).isInfix
    · exact h.trans (List.suffix_append a b).isInfix
    · obtain ⟨front, rfl⟩ := List.getLast?_eq_some_iff.1 hlast
      obtain ⟨rest, rfl⟩ := List.head?_eq_some_iff.1 hhead
      exact ⟨front, rest, by simp⟩

/-- the word begins and ends with something other than white space -/
def IsFramed (w : List Char) : Prop :=
  (∃ c ∈ w.head?, ¬ isBlank c) ∧ ∃ c ∈ w.getLast?, ¬ isBlank c

instance (w : List Char) : Decidable (IsFramed w) :=
  decidable_of_iff (w.head?.any (!isBlank ·) ∧ w.getLast?.any (!isBlank ·)) <| by
    simp only [IsFramed, Option.any_eq_true, Option.mem_def, Bool.not_eq_true', Bool.not_eq_true]

section
variable {w before l behind : List Char}

/-- a word that does not begin with white space does not begin in the white space before a line -/
theorem infix_of_infix_blanks_append (hw : ∃ c ∈ w.head?, ¬ isBlank c)
    (hbefore : ∀ c ∈ before, isBlank c) (h : w <:+: before ++ l) : w <:+: l := by
  induction before with
  | nil => exact h
  | cons c before ih =>
    obtain ⟨hc, hbefore⟩ := List.forall_mem_cons.1 hbefore
    rcases List.infix_cons_iff.1 h with h | h
    · obtain ⟨d, hd, hblank⟩ := hw
      rcases List.prefix_cons_iff.1 h with rfl | ⟨v, rfl, -⟩
      · cases hd
      · obtain rfl := Option.mem_some.1 hd
        exact absurd hc hblank
    · exact ih hbefore h

/-- a word that does not end with white space does not end in the white space behind a line -/
theorem infix_of_infix_append_blanks (hw : ∃ c ∈ w.getLast?, ¬ isBlank c)
    (hbehind : ∀ c ∈ behind, isBlank c) (h : w <:+: l ++ behind) : w <:+: l := by
  rw [← List.head?_reverse] at hw
  rw [← List.reverse_infix, List.reverse_append] at h
  exact List.reverse_infix.1
    (infix_of_infix_blanks_append hw (fun c hc => hbehind c (List.mem_reverse.1 hc)) h)

/-- a framed word stands in a line with white space around it where it stands in the line -/
theorem IsFramed.infix_around_iff (hw : IsFramed w) (hbefore : ∀ c ∈ before, isBlank c)
    (hbehind : ∀ c ∈ behind, isBlank c) : w <:+: before ++ l ++ behind ↔ w <:+: l :=
  ⟨fun h => infix_of_infix_blanks_append hw.1 hbefore (infix_of_infix_append_blanks hw.2 hbehind h),
    fun h => h.trans ⟨before, behind, rfl⟩⟩

theorem trimStart_append (hbefore : ∀ c ∈ before, isBlank c) :
    trimStart (before ++ l) = trimStart l := List.dropWhile_append_of_pos hbefore

theorem trimEnd_append (hbehind : ∀ c ∈ behind, isBlank c) :
    trimEnd (l ++ behind) = trimEnd l := by
  rw [trimEnd, List.reverse_append,
    List.dropWhile_append_of_pos fun c hc => hbehind c (List.mem_reverse.1 hc)]
  rfl

/-- white space around a line is trimmed off -/
theorem trim_around (hbefore : ∀ c ∈ before, isBlank c) (hbehind : ∀ c ∈ behind, isBlank c) :
    trim (before ++ l ++ behind) = trim l := by
  rw [trim, trim, List.append_assoc, trimStart_append hbefore]
  have hcut : trimStart (l ++ behind) =
      if (trimStart l).isEmpty then trimStart behind else trimStart l ++ behind :=
    List.dropWhile_append
  rw [hcut]
  split_ifs with hempty
  · have hnil : trimStart behind = [] := List.dropWhile_eq_nil_iff.2 hbehind
    rw [hnil, List.isEmpty_iff.1 hempty]
  · exact trimEnd_append hbehind

end

/-- a line is what is left of it when it is trimmed, with white space around it -/
theorem exists_trim_eq (l : List Char) : ∃ before behind, l = before ++ trim l ++ behind ∧
    (∀ c ∈ before, isBlank c) ∧ ∀ c ∈ behind, isBlank c := by
  refine ⟨l.takeWhile isBlank, ((trimStart l).reverse.takeWhile isBlank).reverse, ?_,
    fun c hc => List.all_eq_true.1 List.all_takeWhile c hc,
    fun c hc => List.all_eq_true.1 List.all_takeWhile c (List.mem_reverse.1 hc)⟩
  rw [List.append_assoc, trim, trimEnd, ← List.reverse_append, List.takeWhile_append_dropWhile,
    List.reverse_reverse, trimStart, List.takeWhile_append_dropWhile]

theorem exists_head?_dropWhile_isBlank {l : List Char} (h : l.dropWhile isBlank ≠ []) :
    ∃ c ∈ (l.dropWhile isBlank).head?, ¬ isBlank c := by
  obtain ⟨c, rest, hl⟩ := List.exists_cons_of_ne_nil h
  have hfirst := List.head?_dropWhile_not isBlank l
  rw [hl] at hfirst ⊢
  exact ⟨c, rfl, by simpa using hfirst⟩

/-- what is left of a line when it is trimmed is framed -/
theorem isFramed_trim {l : List Char} (h : trim l ≠ []) : IsFramed (trim l) := by
  constructor
  · have hstart : trimStart l ≠ [] := by
      intro hnil
      rw [trim, hnil] at h
      exact h rfl
    obtain ⟨c, hc, hblank⟩ := exists_head?_dropWhile_isBlank hstart
    -- what is taken off the end does not reach that character
    obtain ⟨behind, hbehind⟩ : ∃ behind, trim l ++ behind = trimStart l := by
      obtain ⟨front, hfront⟩ := List.dropWhile_suffix (l := (trimStart l).reverse) isBlank
      refine ⟨front.reverse, ?_⟩
      rw [trim, trimEnd, ← List.reverse_append, hfront, List.reverse_reverse]
    change c ∈ (trimStart l).head? at hc
    rw [← hbehind, List.head?_append_of_ne_nil _ h] at hc
    exact ⟨c, hc, hblank⟩
  · have hend : (trimStart l).reverse.dropWhile isBlank ≠ [] := fun hnil => h (by
      rw [trim, trimEnd, hnil]
      rfl)
    rw [trim, trimEnd, List.getLast?_reverse]
    exact exists_head?_dropWhile_isBlank hend

/-- a framed word stands in a trimmed line where it stands in the line -/
theorem IsFramed.infix_trim_iff {w : List Char} (hw : IsFramed w) (l : List Char) :
    w <:+: trim l ↔ w <:+: l := by
  obtain ⟨before, behind, hl, hbefore, hbehind⟩ := exists_trim_eq l
  conv_rhs => rw [hl]
  exact (hw.infix_around_iff hbefore hbehind).symm

end Text

open Text

/-! ## patterns -/

theorem Reads.exists_mem_head? {k : CharClass} {ps : List Piece} {w : List Char}
    (h : Reads (.one k :: ps) w) : ∃ c ∈ w.head?, k.admits c := by
  cases h with
  | one hk _ => exact ⟨_, rfl, hk⟩

theorem Reads.exists_mem_getLast? {k : CharClass} {ps : List Piece} {w : List Char}
    (h : Reads ps w) (hlast : ps.getLast? = some (.one k)) : ∃ c ∈ w.getLast?, k.admits c := by
  induction h with
  | done => cases hlast
  | @one k' ps c w hk hrest ih =>
    cases ps with
    | nil =>
      obtain rfl : k' = k := by simpa using hlast
      obtain rfl := Piece.reads_nil_iff.1 hrest
      exact ⟨c, rfl, hk⟩
    | cons p ps =>
      obtain ⟨d, hd, hkd⟩ := ih (by rwa [List.getLast?_cons_cons] at hlast)
      exact ⟨d, by rw [List.getLast?_cons, Option.mem_def.1 hd]; rfl, hkd⟩
  | @stop k' ps w _ ih =>
    cases ps with
    | nil => cases hlast
    | cons p ps => exact ih (by rwa [List.getLast?_cons_cons] at hlast)
  | @more k' ps c w _ _ ih =>
    obtain ⟨d, hd, hkd⟩ := ih hlast
    exact ⟨d, by rw [List.getLast?_cons, Option.mem_def.1 hd]; rfl, hkd⟩

theorem Piece.exists_of_isSolid {p : Piece} (h : p.isSolid) : ∃ k, p = .one k ∧ k.isSolid := by
  cases p with
  | one k => exact ⟨k, rfl, h⟩
  | many k => exact absurd h Bool.false_ne_true

/-- the sequence begins and ends with one character that is not white space -/
def Piece.isFramed (ps : List Piece) : Bool := ps.head?.any isSolid && ps.getLast?.any isSolid

theorem Reads.isFramed {ps : List Piece} {w : List Char} (h : Reads ps w)
    (hps : Piece.isFramed ps) : IsFramed w := by
  obtain ⟨hhead, hlast⟩ := Bool.and_eq_true_iff.1 hps
  constructor
  · obtain ⟨p, hp, hsolid⟩ := (Option.any_eq_true _ _).1 hhead
    obtain ⟨k, rfl, hk⟩ := Piece.exists_of_isSolid hsolid
    obtain ⟨ps, rfl⟩ := List.head?_eq_some_iff.1 hp
    obtain ⟨c, hc, hadmits⟩ := h.exists_mem_head?
    exact ⟨c, hc, CharClass.not_isBlank_of_isSolid hk hadmits⟩
  · obtain ⟨p, hp, hsolid⟩ := (Option.any_eq_true _ _).1 hlast
    obtain ⟨k, rfl, hk⟩ := Piece.exists_of_isSolid hsolid
    obtain ⟨c, hc, hadmits⟩ := h.exists_mem_getLast? hp
    exact ⟨c, hc, CharClass.not_isBlank_of_isSolid hk hadmits⟩

namespace LinePattern

/-- every branch begins and ends with one character that is not white space -/
def IsFramed (p : LinePattern) : Prop := ∀ q ∈ p.branches, Piece.isFramed q

instance (p : LinePattern) : Decidable p.IsFramed := by unfold IsFramed; infer_instance

theorem IsFramed.firesOn_around {p : LinePattern} (hp : p.IsFramed) {before l behind : List Char}
    (hbefore : ∀ c ∈ before, isBlank c) (hbehind : ∀ c ∈ behind, isBlank c) :
    p.firesOn (before ++ l ++ behind) = p.firesOn l := by
  have hword : ∀ q ∈ p.branches, ∀ w, Reads q w → (w <:+: before ++ l ++ behind ↔ w <:+: l) :=
    fun q hq w h => (h.isFramed (hp q hq)).infix_around_iff hbefore hbehind
  rw [Bool.eq_iff_iff, firesOn_iff, firesOn_iff]
  exact exists_congr fun q => and_congr_right fun hq => exists_congr fun w =>
    and_congr_left fun h => hword q hq w h

end LinePattern

end ContractAudit
