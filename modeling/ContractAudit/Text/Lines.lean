/-!
# Lines of a text

A text is cut at every line feed and nowhere else, so an empty text has one empty line and a
line feed at the end opens one more.

* `lines s`: the lines, without their line feeds.
* `lineCount s`: how many there are; never zero.

The main statement is `lines_append`: two texts joined by a line feed have the lines of the one
followed by the lines of the other.  So `lines` is inverse to joining lines by line feeds
(`intercalate_lines`, `lines_intercalate`), and what holds of a joined text if and only if it holds
of one of its parts holds of some line (`iff_exists_mem_lines`).
-/

namespace ContractAudit.Text

/-- put one character in front of a text that is already cut into lines -/
def consLine (c : Char) (ls : List (List Char)) : List (List Char) :=
  if c = '\n' then [] :: ls
  else match ls with
    | [] => [[c]]
    | l :: ls => (c :: l) :: ls

def lines (s : List Char) : List (List Char) := s.foldr consLine [[]]

def lineCount (s : List Char) : Nat := (lines s).length

theorem lines_nil : lines [] = [[]] := rfl

theorem lines_cons (c : Char) (s : List Char) : lines (c :: s) = consLine c (lines s) := rfl

theorem consLine_ne_nil (c : Char) (ls : List (List Char)) : consLine c ls ≠ [] := by
  unfold consLine
  split
  · simp
  · split <;> simp

theorem lines_ne_nil (s : List Char) : lines s ≠ [] := by
  cases s with
  | nil => simp [lines]
  | cons c s => exact consLine_ne_nil c _

theorem lineCount_pos (s : List Char) : 0 < lineCount s :=
  List.length_pos_iff.2 (lines_ne_nil s)

theorem consLine_append (c : Char) {ls : List (List Char)} (h : ls ≠ []) (ms : List (List Char)) :
    consLine c (ls ++ ms) = consLine c ls ++ ms := by
  cases ls with
  | nil => exact absurd rfl h
  | cons l ls =>
    unfold consLine
    split <;> simp

theorem lines_append (a b : List Char) : lines (a ++ '\n' :: b) = lines a ++ lines b := by
  induction a with
  | nil => simp [lines_cons, lines_nil, consLine]
  | cons c a ih => simp [lines_cons, ih, consLine_append c (lines_ne_nil a)]

theorem lineCount_append (a b : List Char) :
    lineCount (a ++ '\n' :: b) = lineCount a + lineCount b := by
  simp [lineCount, lines_append]

/-- no line holds a line feed -/
theorem newline_not_mem_of_mem_lines {s l : List Char} (h : l ∈ lines s) : '\n' ∉ l := by
  induction s generalizing l with
  | nil => simp_all [lines]
  | cons c s ih =>
    rw [lines_cons, consLine.eq_def] at h
    split at h
    · rcases List.mem_cons.1 h with rfl | h
      · simp
      · exact ih h
    · rename_i hc
      split at h
      · obtain rfl := List.mem_singleton.1 h
        exact fun e => hc (List.mem_singleton.1 e).symm
      · rename_i m ms hm
        rcases List.mem_cons.1 h with rfl | h
        · intro e
          rcases List.mem_cons.1 e with e | e
          · exact hc e.symm
          · exact ih (by simp [hm]) e
        · exact ih (by simp [hm, h])

/-- the lines joined by line feeds are the text -/
theorem intercalate_lines (s : List Char) : ['\n'].intercalate (lines s) = s := by
  induction s with
  | nil => rfl
  | cons c s ih =>
    obtain ⟨l, ls, h⟩ := List.exists_cons_of_ne_nil (lines_ne_nil s)
    rw [h] at ih
    rw [lines_cons, h, consLine]
    by_cases hc : c = '\n'
    · rw [if_pos hc, List.intercalate_cons_of_ne_nil (by simp), ih, hc]
      rfl
    · rw [if_neg hc]
      cases ls with
      | nil => simpa using ih
      | cons m ls =>
        rw [List.intercalate_cons_of_ne_nil (by simp)] at ih ⊢
        rw [List.cons_append, List.cons_append, ih]

/-- a text without a line feed is one line -/
theorem lines_of_not_mem {s : List Char} (h : '\n' ∉ s) : lines s = [s] := by
  induction s with
  | nil => rfl
  | cons c s ih =>
    rw [List.mem_cons, not_or] at h
    rw [lines_cons, ih h.2, consLine, if_neg (Ne.symm h.1)]

/-- lines that are joined by line feeds are the lines of the joined text -/
theorem lines_intercalate {ls : List (List Char)} (hne : ls ≠ []) (h : ∀ l ∈ ls, '\n' ∉ l) :
    lines (['\n'].intercalate ls) = ls := by
  induction ls with
  | nil => exact absurd rfl hne
  | cons l ls ih =>
    have hl : lines l = [l] := lines_of_not_mem (h l List.mem_cons_self)
    cases ls with
    | nil => rwa [List.intercalate_singleton]
    | cons m ls =>
      have hrest : ∀ k ∈ m :: ls, '\n' ∉ k := fun k hk => h k (List.mem_cons_of_mem l hk)
      rw [List.intercalate_cons_of_ne_nil (List.cons_ne_nil m ls), List.append_assoc,
        List.singleton_append, lines_append, hl, ih (List.cons_ne_nil m ls) hrest,
        List.singleton_append]

/-- what a joined text has if and only if one of its parts has it, some line has -/
theorem iff_exists_mem_lines {P : List Char → Prop}
    (h : ∀ a b, P (a ++ '\n' :: b) ↔ P a ∨ P b) (s : List Char) :
    P s ↔ ∃ l ∈ lines s, P l := by
  have hjoined (ls : List (List Char)) (hne : ls ≠ []) :
      P (['\n'].intercalate ls) ↔ ∃ l ∈ ls, P l := by
    induction ls with
    | nil => exact absurd rfl hne
    | cons l ls ih =>
      cases ls with
      | nil => simp
      | cons m ls =>
        rw [List.intercalate_cons_of_ne_nil (List.cons_ne_nil m ls), List.append_assoc,
          List.singleton_append, h, ih (List.cons_ne_nil m ls)]
        simp
  rw [← hjoined _ (lines_ne_nil s), intercalate_lines]

end ContractAudit.Text
