import ContractAudit.LinePattern

/-!
# What patterns read

`LinePattern.firesOn` goes through a line once with a set of sequences that still have to be read.
Here it is compared with the meaning of a pattern, which says nothing about such sets.

* `Piece.reads_cons_iff`: one step of the search.
* `LinePattern.Matches p l`: somewhere in `l` stands a factor that a branch of `p` reads.
* `LinePattern.firesOn_iff`: the search finds a match if and only if there is one.
* `LinePattern.IsSolid`: every branch asks for a character that is not white space, so that no
  blank line matches (`LinePattern.Matches.exists_not_isBlank`).
-/

namespace ContractAudit

open Text

/-! ## one step -/

namespace Piece

theorem reads_nil_iff {w : List Char} : Reads [] w ↔ w = [] := by
  constructor
  · intro h
    cases h
    rfl
  · rintro rfl
    exact .done

theorem canEnd_iff {ps : List Piece} : canEnd ps ↔ Reads ps [] := by
  induction ps with
  | nil => simp [canEnd, reads_nil_iff]
  | cons p ps ih =>
    cases p with
    | one k =>
      constructor
      · intro h
        exact absurd h (by simp [canEnd])
      · intro h
        cases h
    | many k =>
      show canEnd ps ↔ _
      rw [ih]
      constructor
      · exact .stop
      · intro h
        cases h with
        | stop h => exact h

/-- after the character `c` one of the tails that `advance` gives reads the rest -/
theorem reads_cons_iff {ps : List Piece} {c : Char} {w : List Char} :
    Reads ps (c :: w) ↔ ∃ q ∈ advance c ps, Reads q w := by
  induction ps with
  | nil => simp [advance, reads_nil_iff]
  | cons p ps ih =>
    cases p with
    | one k =>
      constructor
      · intro h
        cases h with
        | one hk h => exact ⟨ps, by simp [advance, hk], h⟩
      · rintro ⟨q, hq, h⟩
        by_cases hk : k.admits c
        · obtain rfl : q = ps := by simpa [advance, hk] using hq
          exact .one hk h
        · exact absurd hq (by simp [advance, hk])
    | many k =>
      constructor
      · intro h
        cases h with
        | stop h =>
          obtain ⟨q, hq, hw⟩ := ih.1 h
          refine ⟨q, ?_, hw⟩
          by_cases hk : k.admits c <;> simp [advance, hk, hq]
        | more hk h => exact ⟨.many k :: ps, by simp [advance, hk], h⟩
      · rintro ⟨q, hq, h⟩
        by_cases hk : k.admits c
        · rw [advance, if_pos hk] at hq
          rcases List.mem_cons.1 hq with rfl | hq
          · exact .more hk h
          · exact .stop (ih.2 ⟨q, hq, h⟩)
        · rw [advance, if_neg hk] at hq
          exact .stop (ih.2 ⟨q, hq, h⟩)

end Piece

/-! ## the search -/

namespace LinePattern

/-- one of the sequences reads a beginning of the text -/
def ReadsPrefix (qs : List (List Piece)) (s : List Char) : Prop :=
  ∃ q ∈ qs, ∃ w, w <+: s ∧ Reads q w

/-- one of the sequences reads a factor of the text -/
def ReadsFactor (qs : List (List Piece)) (s : List Char) : Prop :=
  ∃ q ∈ qs, ∃ w, w <:+: s ∧ Reads q w

/-- the pattern reads a factor of the line -/
def Matches (p : LinePattern) (line : List Char) : Prop := ReadsFactor p.branches line

theorem any_canEnd_iff {qs : List (List Piece)} :
    qs.any Piece.canEnd ↔ ∃ q ∈ qs, Reads q [] := by
  rw [List.any_eq_true]
  exact exists_congr fun q => and_congr_right fun _ => Piece.canEnd_iff

theorem readsPrefix_cons_iff {qs : List (List Piece)} {c : Char} {s : List Char} :
    ReadsPrefix qs (c :: s) ↔
      (∃ q ∈ qs, Reads q []) ∨ ReadsPrefix (qs.flatMap (Piece.advance c)) s := by
  constructor
  · rintro ⟨q, hq, w, hw, h⟩
    rcases List.prefix_cons_iff.1 hw with rfl | ⟨v, rfl, hv⟩
    · exact .inl ⟨q, hq, h⟩
    · obtain ⟨r, hr, h⟩ := Piece.reads_cons_iff.1 h
      exact .inr ⟨r, List.mem_flatMap.2 ⟨q, hq, hr⟩, v, hv, h⟩
  · rintro (⟨q, hq, h⟩ | ⟨r, hr, v, hv, h⟩)
    · exact ⟨q, hq, [], List.nil_prefix, h⟩
    · obtain ⟨q, hq, hr⟩ := List.mem_flatMap.1 hr
      exact ⟨q, hq, c :: v, List.prefix_cons_iff.2 (.inr ⟨v, rfl, hv⟩),
        Piece.reads_cons_iff.2 ⟨r, hr, h⟩⟩

theorem readsFactor_cons_iff {qs : List (List Piece)} {c : Char} {s : List Char} :
    ReadsFactor qs (c :: s) ↔ ReadsPrefix qs (c :: s) ∨ ReadsFactor qs s := by
  constructor
  · rintro ⟨q, hq, w, hw, h⟩
    rcases List.infix_cons_iff.1 hw with hw | hw
    · exact .inl ⟨q, hq, w, hw, h⟩
    · exact .inr ⟨q, hq, w, hw, h⟩
  · rintro (⟨q, hq, w, hw, h⟩ | ⟨q, hq, w, hw, h⟩)
    · exact ⟨q, hq, w, hw.isInfix, h⟩
    · exact ⟨q, hq, w, List.infix_cons_iff.2 (.inr hw), h⟩

theorem readsPrefix_eraseDups_append {qs rs : List (List Piece)} {s : List Char} :
    ReadsPrefix (qs ++ rs).eraseDups s ↔ ReadsPrefix qs s ∨ ReadsPrefix rs s := by
  simp only [ReadsPrefix, List.mem_eraseDups, List.mem_append, or_and_right, exists_or]

/-- The search keeps in `active` what begins at this place or before it, and every sequence of
`start` is among them; so it finds what `active` reads from here on, and what `start` reads
further on. -/
theorem search_iff {start active : List (List Piece)} (hsub : start ⊆ active) (s : List Char) :
    search start active s ↔ ReadsPrefix active s ∨ ReadsFactor start s := by
  induction s generalizing active with
  | nil =>
    show active.any Piece.canEnd = true ↔ _
    rw [any_canEnd_iff]
    constructor
    · rintro ⟨q, hq, h⟩
      exact .inl ⟨q, hq, [], List.nil_prefix, h⟩
    · rintro (⟨q, hq, w, hw, h⟩ | ⟨q, hq, w, hw, h⟩)
      · obtain rfl := List.prefix_nil.1 hw
        exact ⟨q, hq, h⟩
      · obtain rfl := List.infix_nil.1 hw
        exact ⟨q, hsub hq, h⟩
  | cons c s ih =>
    have hnext : start ⊆ (start ++ active.flatMap (Piece.advance c)).eraseDups := by
      intro q hq
      simp [hq]
    have hinf : ReadsPrefix start s → ReadsFactor start s := fun ⟨q, hq, w, hw, h⟩ =>
      ⟨q, hq, w, hw.isInfix, h⟩
    have hhere : ReadsPrefix start (c :: s) → ReadsPrefix active (c :: s) :=
      fun ⟨q, hq, h⟩ => ⟨q, hsub hq, h⟩
    rw [search, Bool.or_eq_true, any_canEnd_iff, ih hnext, readsPrefix_eraseDups_append,
      readsFactor_cons_iff]
    constructor
    · rintro (h | (h | h) | h)
      · exact .inl (readsPrefix_cons_iff.2 (.inl h))
      · exact .inr (.inr (hinf h))
      · exact .inl (readsPrefix_cons_iff.2 (.inr h))
      · exact .inr (.inr h)
    · rintro (h | h | h)
      · exact (readsPrefix_cons_iff.1 h).imp_right fun h => .inl (.inr h)
      · exact (readsPrefix_cons_iff.1 (hhere h)).imp_right fun h => .inl (.inr h)
      · exact .inr (.inr h)

/-- the search finds a match if and only if there is one -/
theorem firesOn_iff {p : LinePattern} {line : List Char} : p.firesOn line ↔ p.Matches line := by
  rw [firesOn, search_iff (List.Subset.refl _)]
  constructor
  · rintro (⟨q, hq, w, hw, h⟩ | h)
    · exact ⟨q, hq, w, hw.isInfix, h⟩
    · exact h
  · exact .inr

instance (p : LinePattern) (line : List Char) : Decidable (p.Matches line) :=
  decidable_of_iff _ firesOn_iff

end LinePattern

/-! ## patterns that no blank line matches -/

theorem foldCase_of_isBlank {c : Char} (h : isBlank c) : foldCase c = c := by
  have hs : c ≠ '\u017F' := by rintro rfl; exact absurd h (by decide)
  have hk : c ≠ '\u212A' := by rintro rfl; exact absurd h (by decide)
  have hletter : ¬ ('A' ≤ c ∧ c ≤ 'Z') := by
    rintro ⟨h1, h2⟩
    have h1 : 65 ≤ c.toNat := h1
    have h2 : c.toNat ≤ 90 := h2
    simp only [isBlank, Bool.or_eq_true, Bool.and_eq_true, decide_eq_true_eq, beq_iff_eq] at h
    omega
  rw [foldCase, if_neg hletter, if_neg hs, if_neg hk]

/-- the class has one character up to case, and that is not white space -/
def CharClass.isSolid : CharClass → Bool
  | exactly c | folded c => !isBlank c
  | _ => false

theorem CharClass.not_isBlank_of_isSolid {k : CharClass} {c : Char} (hk : k.isSolid)
    (h : k.admits c) : ¬ isBlank c := by
  intro hc
  cases k with
  | exactly a =>
    obtain rfl : c = a := by simpa [admits] using h
    simp [isSolid, hc] at hk
  | folded a =>
    obtain rfl : c = a := by simpa [admits, foldCase_of_isBlank hc] using h
    simp [isSolid, hc] at hk
  | _ => exact absurd hk (by simp [isSolid])

/-- the piece reads one character, and that is not white space -/
def Piece.isSolid : Piece → Bool
  | one k => k.isSolid
  | many _ => false

theorem Reads.exists_not_isBlank {ps : List Piece} {w : List Char} (h : Reads ps w)
    (hs : ps.any Piece.isSolid) : ∃ c ∈ w, ¬ isBlank c := by
  induction h with
  | done => exact absurd hs (by simp)
  | @one k ps c w hk _ ih =>
    rw [List.any_cons, Bool.or_eq_true] at hs
    rcases hs with hs | hs
    · exact ⟨c, List.mem_cons_self, CharClass.not_isBlank_of_isSolid hs hk⟩
    · obtain ⟨d, hd, hb⟩ := ih hs
      exact ⟨d, List.mem_cons_of_mem _ hd, hb⟩
  | stop _ ih => exact ih (by simpa [Piece.isSolid] using hs)
  | more _ _ ih =>
    obtain ⟨d, hd, hb⟩ := ih hs
    exact ⟨d, List.mem_cons_of_mem _ hd, hb⟩

namespace LinePattern

/-- every branch asks for a character that is not white space -/
def IsSolid (p : LinePattern) : Prop := ∀ q ∈ p.branches, q.any Piece.isSolid

instance (p : LinePattern) : Decidable p.IsSolid := by unfold IsSolid; infer_instance

theorem Matches.exists_not_isBlank {p : LinePattern} {line : List Char} (h : p.Matches line)
    (hp : p.IsSolid) : ∃ c ∈ line, ¬ isBlank c := by
  obtain ⟨q, hq, w, hw, hr⟩ := h
  obtain ⟨c, hc, hb⟩ := hr.exists_not_isBlank (hp q hq)
  exact ⟨c, hw.subset hc, hb⟩

end LinePattern

end ContractAudit
