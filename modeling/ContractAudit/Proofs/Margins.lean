import ContractAudit.Analysis.FileMetrics
import ContractAudit.Proofs.ArithmeticFindings
import ContractAudit.Proofs.LineFindings
import ContractAudit.Proofs.SilencedSources
import ContractAudit.Proofs.TextFactors

/-!
# White space around lines

What is looked for in a line begins and ends with something other than white space, and what is
reported of a line is trimmed.  So white space around the lines of a source changes nothing, with
one exception: a pattern of the rule for arithmetic asks for an operator and any character but an
equals sign behind it, and that may be white space at the end of the line.

* `Margins`: white space before and behind a line; `withMargins m s` is the text `s` with the
  margins `m i` around line `i`.
* `lines_withMargins`, `trimmedLines_withMargins`: its lines, and its lines when they are trimmed.
* `Rule.IsFramed`: the rule looks on a line for framed words only, so that margins do not matter to
  it (`Rule.IsFramed.findings_withMargins`).
* `EndsOpen line`: the line ends with an operator that the rule for arithmetic does not report
  there but for what comes behind it (`Rule.findingsOnLine_integerOverflow_around`).
* `toCRLF_eq_withMargins`: line ends of two characters are margins.

The main statement is `findings_with_margins`.
-/

namespace ContractAudit

open Text

/-! ## texts with margins -/

/-- white space around a line that does not end the line -/
structure Margins where
  before : List Char
  behind : List Char
  blank : ∀ c ∈ before ++ behind, c ∈ whiteSpace ∧ c ≠ '\n'

namespace Margins

/-- the line with the margins around it -/
def around (m : Margins) (line : List Char) : List Char := m.before ++ line ++ m.behind

section
variable (m : Margins)

theorem isBlank_before : ∀ c ∈ m.before, isBlank c := fun c hc =>
  isBlank_iff.2 (m.blank c (List.mem_append_left _ hc)).1

theorem isBlank_behind : ∀ c ∈ m.behind, isBlank c := fun c hc =>
  isBlank_iff.2 (m.blank c (List.mem_append_right _ hc)).1

theorem newline_not_mem_around {line : List Char} (hline : '\n' ∉ line) :
    '\n' ∉ m.around line := by
  intro h
  rcases List.mem_append.1 h with h | h
  · rcases List.mem_append.1 h with h | h
    · exact (m.blank _ (List.mem_append_left _ h)).2 rfl
    · exact hline h
  · exact (m.blank _ (List.mem_append_right _ h)).2 rfl

theorem trim_around (line : List Char) : trim (m.around line) = trim line :=
  Text.trim_around m.isBlank_before m.isBlank_behind

theorem infix_around_iff {w line : List Char} (hw : IsFramed w) :
    w <:+: m.around line ↔ w <:+: line := hw.infix_around_iff m.isBlank_before m.isBlank_behind

theorem ofLine_around (about : RuleInfo) (number : Nat) (line : List Char) :
    Finding.ofLine about number (m.around line) = .ofLine about number line := by
  rw [Finding.ofLine, m.trim_around, Finding.ofLine]

end

end Margins

/-- the lines, the first of which has the number `n`, with margins around them -/
def linesWithMargins (m : Nat → Margins) (n : Nat) (ls : List (List Char)) : List (List Char) :=
  (ls.zipIdx n).map fun (line, i) => (m i).around line

/-- the text with margins around its lines, which are counted from zero -/
def withMargins (m : Nat → Margins) (s : List Char) : List Char :=
  ['\n'].intercalate (linesWithMargins m 0 (lines s))

section
variable {m : Nat → Margins} {n : Nat} {line s : List Char} {ls : List (List Char)}

theorem linesWithMargins_cons :
    linesWithMargins m n (line :: ls) = (m n).around line :: linesWithMargins m (n + 1) ls := rfl

theorem linesWithMargins_ne_nil (hne : ls ≠ []) : linesWithMargins m n ls ≠ [] := by
  obtain ⟨line, ls, rfl⟩ := List.exists_cons_of_ne_nil hne
  exact List.cons_ne_nil _ _

theorem newline_not_mem_linesWithMargins (hls : ∀ line ∈ ls, '\n' ∉ line) :
    ∀ line ∈ linesWithMargins m n ls, '\n' ∉ line := by
  intro line hline
  obtain ⟨⟨l, i⟩, hl, rfl⟩ := List.mem_map.1 hline
  exact (m i).newline_not_mem_around (hls l (List.fst_mem_of_mem_zipIdx hl))

theorem lines_withMargins : lines (withMargins m s) = linesWithMargins m 0 (lines s) :=
  lines_intercalate (linesWithMargins_ne_nil (lines_ne_nil s))
    (newline_not_mem_linesWithMargins fun _ => newline_not_mem_of_mem_lines)

theorem lineCount_withMargins : lineCount (withMargins m s) = lineCount s := by
  rw [lineCount, lines_withMargins, linesWithMargins, List.length_map, List.length_zipIdx]
  rfl

theorem trimmedLines_withMargins : trimmedLines (withMargins m s) = trimmedLines s := by
  rw [trimmedLines, lines_withMargins, linesWithMargins, List.map_map]
  conv_rhs => rw [trimmedLines, ← List.zipIdx_map_fst 0 (lines s), List.map_map]
  exact List.map_congr_left fun (line, i) _ => (m i).trim_around line

theorem exists_mem_linesWithMargins_iff {P : List Char → Prop}
    (hP : ∀ (m : Margins) line, P (m.around line) ↔ P line) :
    (∃ line ∈ linesWithMargins m n ls, P line) ↔ ∃ line ∈ ls, P line := by
  induction ls generalizing n with
  | nil => exact Iff.rfl
  | cons line ls ih => simp only [linesWithMargins_cons, List.mem_cons, exists_eq_or_imp, hP, ih]

theorem IsAccessControlWord.isFramed {w : List Char} (hw : IsAccessControlWord w) :
    IsFramed w :=
  ⟨⟨_, List.head?_eq_some_head hw.ne_nil, hw.not_isBlank _ (List.head_mem _)⟩,
    _, List.getLast?_eq_some_getLast hw.ne_nil, hw.not_isBlank _ (List.getLast_mem _)⟩

theorem namesAccessControl_withMargins_iff :
    NamesAccessControl (withMargins m s) ↔ NamesAccessControl s := by
  rw [namesAccessControl_iff_exists_line, lines_withMargins,
    exists_mem_linesWithMargins_iff fun m line => ?_, ← namesAccessControl_iff_exists_line]
  exact exists_congr fun w => and_congr_left fun hw => m.infix_around_iff hw.isFramed

/-! ## findings in texts with margins -/

namespace Rule

theorem coversSource_withMargins_iff {r : Rule} (hr : r ∈ catalogue) :
    r.exemption.coversSource (withMargins m s) ↔ r.exemption.coversSource s := by
  by_cases h : r = .missingAccessControl
  · subst h
    rw [coversSource_iff_namesAccessControl, coversSource_iff_namesAccessControl,
      namesAccessControl_withMargins_iff]
  · exact iff_of_false (fun hs => h (eq_of_coversSource hr hs))
      fun hs => h (eq_of_coversSource hr hs)

theorem findingsAfter_linesWithMargins {r : Rule} :
    r.findingsAfter n (linesWithMargins m n ls) =
      (ls.zipIdx n).flatMap fun (line, i) => r.findingsOnLine (i + 1) ((m i).around line) := by
  induction ls generalizing n with
  | nil => rfl
  | cons line ls ih =>
    rw [linesWithMargins_cons, findingsAfter_cons, ih, List.zipIdx_cons, List.flatMap_cons]

theorem findings_withMargins {r : Rule} (hr : r ∈ catalogue) :
    r.findings (withMargins m s) =
      if r.exemption.coversSource s then []
      else (lines s).zipIdx.flatMap fun (line, i) =>
        r.findingsOnLine (i + 1) ((m i).around line) := by
  have hcovers := coversSource_withMargins_iff (m := m) (s := s) hr
  split_ifs with hs
  · exact if_pos (hcovers.2 hs)
  · rw [findings_eq_findingsAfter (mt hcovers.1 hs), lines_withMargins,
      findingsAfter_linesWithMargins]

end Rule

end

/-! ## rules to which margins do not matter -/

/-- the words that make a line exempt are framed -/
def Exemption.IsFramed : Exemption → Prop
  | never => True
  | line ms => ∀ w ∈ words ms, Text.IsFramed w
  | source _ => True

instance : (e : Exemption) → Decidable e.IsFramed
  | .never => isTrue trivial
  | .line ms => inferInstanceAs (Decidable (∀ w ∈ words ms, Text.IsFramed w))
  | .source _ => isTrue trivial

theorem Exemption.IsFramed.coversLine_around {e : Exemption} (he : e.IsFramed) (m : Margins)
    (line : List Char) : e.coversLine (m.around line) = e.coversLine line := by
  cases e with
  | never => rfl
  | line ms =>
    show hasAnyFactor (words ms) _ = hasAnyFactor (words ms) _
    rw [Bool.eq_iff_iff, hasAnyFactor_iff, hasAnyFactor_iff]
    exact exists_congr fun w => and_congr_right fun hw => m.infix_around_iff (he w hw)
  | source ms => rfl

theorem LinePattern.IsFramed.firesOn_margins {p : LinePattern} (hp : p.IsFramed) (m : Margins)
    (line : List Char) : p.firesOn (m.around line) = p.firesOn line :=
  hp.firesOn_around m.isBlank_before m.isBlank_behind

namespace Rule

/-- the rule looks on a line for framed words only -/
def IsFramed (r : Rule) : Prop := (∀ p ∈ r.patterns, p.IsFramed) ∧ r.exemption.IsFramed

instance (r : Rule) : Decidable r.IsFramed := by unfold IsFramed; infer_instance

theorem IsFramed.findingsOnLine_around {r : Rule} (hr : r.IsFramed) (m : Margins) (number : Nat)
    (line : List Char) :
    r.findingsOnLine number (m.around line) = r.findingsOnLine number line := by
  unfold findingsOnLine
  rw [hr.2.coversLine_around, m.ofLine_around,
    List.filter_congr fun p hp => (hr.1 p hp).firesOn_margins m line]

theorem IsFramed.findings_withMargins {r : Rule} (hr : r.IsFramed) (hmem : r ∈ catalogue)
    (m : Nat → Margins) (s : List Char) : r.findings (withMargins m s) = r.findings s := by
  rw [Rule.findings_withMargins hmem, findings]
  simp only [hr.findingsOnLine_around]

end Rule

/-! ## the rule to which they do -/

/-- the line has no marker and ends with an operator that stands before equals signs everywhere
else in the line -/
def EndsOpen (line : List Char) : Prop :=
  ¬ "safe".toList <:+: line ∧ ¬ "checked".toList <:+: line ∧
    ∃ op ∈ ['+', '-', '*', '/'], line.getLast? = some op ∧
      ∀ before c after, line = before ++ op :: c :: after → c = '='

theorem someOccurrence_goesOnOtherwise_iff {op : Char} {line : List Char} :
    SomeOccurrence GoesOnOtherwise op line ↔ ∃ c, c ≠ '=' ∧ [op, c] <:+: line := by
  constructor
  · rintro ⟨before, _, rfl, c, after, rfl, hc⟩
    exact ⟨c, hc, before, after, by simp⟩
  · rintro ⟨c, hc, before, after, rfl⟩
    exact ⟨before, c :: after, by simp, c, after, rfl, hc⟩

theorem endsOpen_iff {line : List Char} :
    EndsOpen line ↔ ¬ ("safe".toList <:+: line ∨ "checked".toList <:+: line) ∧
      Rule.operators.any fun op =>
        line.getLast? = some op ∧ ¬ SomeOccurrence GoesOnOtherwise op line := by
  have hother (op : Char) : ¬ SomeOccurrence GoesOnOtherwise op line ↔
      ∀ before c after, line = before ++ op :: c :: after → c = '=' := by
    constructor
    · intro h before c after hline
      by_contra hc
      exact h ⟨before, c :: after, hline, c, after, rfl, hc⟩
    · rintro h ⟨before, _, hline, c, after, rfl, hc⟩
      exact hc (h before c after hline)
  simp only [EndsOpen, List.any_eq_true, decide_eq_true_iff, Rule.operators, hother, not_or,
    and_assoc]

instance (line : List Char) : Decidable (EndsOpen line) := decidable_of_iff _ endsOpen_iff.symm

/-- An operator has something other than an equals sign behind it in the line with margins if it
has so in the line, or if the line ends with it and white space comes next. -/
theorem someOccurrence_around_iff {op : Char} (hop : ¬ isBlank op) (m : Margins)
    (line : List Char) :
    SomeOccurrence GoesOnOtherwise op (m.around line) ↔
      SomeOccurrence GoesOnOtherwise op line ∨ m.behind ≠ [] ∧ line.getLast? = some op := by
  rw [someOccurrence_goesOnOtherwise_iff, someOccurrence_goesOnOtherwise_iff]
  constructor
  · rintro ⟨c, hc, h⟩
    rw [Margins.around, List.append_assoc] at h
    -- the operator does not stand in the margins
    have hline := infix_of_infix_blanks_append ⟨op, rfl, hop⟩ m.isBlank_before h
    rcases pair_infix_append_iff.1 hline with h | h | ⟨hlast, hhead⟩
    · exact .inl ⟨c, hc, h⟩
    · exact absurd (m.isBlank_behind op (h.subset List.mem_cons_self)) hop
    · have hne : m.behind ≠ [] := by
        rintro hnil
        rw [hnil] at hhead
        cases hhead
      exact .inr ⟨hne, hlast⟩
  · rintro (⟨c, hc, h⟩ | ⟨hne, hlast⟩)
    · exact ⟨c, hc, h.trans ⟨m.before, m.behind, rfl⟩⟩
    · obtain ⟨c, rest, hbehind⟩ := List.exists_cons_of_ne_nil hne
      have hblank : isBlank c := m.isBlank_behind c (hbehind ▸ List.mem_cons_self)
      have hpair : [op, c] <:+: line ++ m.behind :=
        pair_infix_append_iff.2 (.inr (.inr ⟨hlast, by rw [hbehind]; rfl⟩))
      refine ⟨c, fun h => absurd (h ▸ hblank) (by decide), hpair.trans ?_⟩
      rw [Margins.around, List.append_assoc]
      exact (List.suffix_append _ _).isInfix

/-- a property that at most one member of the list has besides those that have `p` -/
theorem countP_or_of_unique {α : Type} {l : List α} (hl : l.Nodup) {p q : α → Prop}
    [DecidablePred p] [DecidablePred q] (hq : ∀ a b, q a → q b → a = b) :
    l.countP (fun a => p a ∨ q a) = l.countP p + if l.any fun a => q a ∧ ¬ p a then 1 else 0 := by
  induction l with
  | nil => rfl
  | cons a l ih =>
    obtain ⟨ha, hl⟩ := List.nodup_cons.1 hl
    rw [List.countP_cons, List.countP_cons, ih hl]
    by_cases hnew : q a ∧ ¬ p a
    · have hrest : ∀ b ∈ l, q b → p b := fun b hb hqb => absurd (hq a b hnew.1 hqb ▸ hb) ha
      simpa [hnew] using hrest
    · have hsame : p a ∨ q a ↔ p a := ⟨fun h => h.elim id fun hqa => by_contra fun hpa =>
        hnew ⟨hqa, hpa⟩, .inl⟩
      simp only [hsame, List.any_cons, hnew, decide_false, Bool.false_or]
      omega

namespace Rule

theorem forall_mem_operators_iff {P : Char → Prop} :
    (∀ op ∈ operators, P op) ↔ P '+' ∧ P '-' ∧ P '*' ∧ P '/' := by
  simp [operators]

theorem isFramed_compoundAssignment : ∀ op ∈ operators, (compoundAssignment op).IsFramed :=
  forall_mem_operators_iff.2 (by decide)

theorem not_isBlank_of_mem_operators : ∀ op ∈ operators, ¬ isBlank op :=
  forall_mem_operators_iff.2 (by decide)

theorem length_firingOn_around (m : Margins) (line : List Char) :
    (firingOn (m.around line)).length = (firingOn line).length +
      if operators.any fun op => (m.behind ≠ [] ∧ line.getLast? = some op) ∧
        ¬ SomeOccurrence GoesOnOtherwise op line then 1 else 0 := by
  have hcompound : operators.countP (fun op => SomeOccurrence ReachesEquals op (m.around line)) =
      operators.countP fun op => SomeOccurrence ReachesEquals op line := by
    refine List.countP_congr fun op hop => ?_
    rw [decide_eq_true_iff, decide_eq_true_iff, ← firesOn_compoundAssignment_iff,
      ← firesOn_compoundAssignment_iff, (isFramed_compoundAssignment op hop).firesOn_margins m line]
  have hbinary : operators.countP (fun op => SomeOccurrence GoesOnOtherwise op (m.around line)) =
      operators.countP fun op => SomeOccurrence GoesOnOtherwise op line ∨
        m.behind ≠ [] ∧ line.getLast? = some op := by
    refine List.countP_congr fun op hop => ?_
    rw [decide_eq_true_iff, decide_eq_true_iff]
    exact someOccurrence_around_iff (not_isBlank_of_mem_operators op hop) m line
  have hunique : ∀ a b, m.behind ≠ [] ∧ line.getLast? = some a →
      m.behind ≠ [] ∧ line.getLast? = some b → a = b := fun a b ha hb =>
    Option.some.inj (ha.2.symm.trans hb.2)
  simp only [firingOn, List.length_append, List.length_map, ← List.countP_eq_length_filter]
  rw [hcompound, hbinary, countP_or_of_unique (by decide) hunique, Nat.add_assoc]

theorem findingsOnLine_integerOverflow_eq (number : Nat) (line : List Char) :
    integerOverflow.findingsOnLine number line =
      if integerOverflow.exemption.coversLine line then []
      else List.replicate (firingOn line).length (.ofLine integerOverflow.about number line) := by
  rw [findingsOnLine, filter_patterns_integerOverflow, List.map_const']

/-- white space at the end adds a finding to a line that ends open, and changes no other line -/
theorem findingsOnLine_integerOverflow_around (m : Margins) (number : Nat) (line : List Char) :
    integerOverflow.findingsOnLine number (m.around line) =
      integerOverflow.findingsOnLine number line ++
        if m.behind ≠ [] ∧ EndsOpen line then [.ofLine integerOverflow.about number line]
        else [] := by
  have hframed : integerOverflow.exemption.IsFramed := by decide +kernel
  rw [findingsOnLine_integerOverflow_eq, findingsOnLine_integerOverflow_eq,
    hframed.coversLine_around, m.ofLine_around, length_firingOn_around]
  by_cases hmarked : integerOverflow.exemption.coversLine line
  · have hopen : ¬ EndsOpen line := fun h =>
      (endsOpen_iff.1 h).1 (coversLine_integerOverflow_iff.1 hmarked)
    rw [if_pos hmarked, if_pos hmarked, if_neg fun h => hopen h.2, List.append_nil]
  · have hopen : (operators.any fun op => (m.behind ≠ [] ∧ line.getLast? = some op) ∧
        ¬ SomeOccurrence GoesOnOtherwise op line) ↔ m.behind ≠ [] ∧ EndsOpen line := by
      rw [endsOpen_iff, and_iff_right (mt coversLine_integerOverflow_iff.2 hmarked)]
      simp only [List.any_eq_true, decide_eq_true_iff, and_assoc,
        and_left_comm (b := m.behind ≠ []), exists_and_left]
    rw [if_neg hmarked, if_neg hmarked, List.replicate_add]
    simp only [hopen]
    split_ifs <;> rfl

end Rule

/-! ## line ends of two characters -/

/-- the text with a carriage return before each line feed -/
def toCRLF (s : List Char) : List Char := s.flatMap fun c => if c = '\n' then ['\r', '\n'] else [c]

/-- no margin -/
def Margins.none : Margins := ⟨[], [], fun _ h => nomatch h⟩

/-- a carriage return behind the line -/
def Margins.carriageReturn : Margins :=
  ⟨[], ['\r'], fun _ h => List.mem_singleton.1 h ▸ by decide⟩

/-- a carriage return behind each line but the last of `n` lines -/
def Margins.crlf (n i : Nat) : Margins := if i + 1 < n then carriageReturn else none

theorem toCRLF_append (a b : List Char) : toCRLF (a ++ b) = toCRLF a ++ toCRLF b :=
  List.flatMap_append

theorem toCRLF_of_not_mem {line : List Char} (h : '\n' ∉ line) : toCRLF line = line := by
  have hsame : ∀ c ∈ line, (if c = '\n' then ['\r', '\n'] else [c]) = [c] := fun c hc =>
    if_neg fun heq : c = '\n' => h (heq ▸ hc)
  rw [toCRLF, List.flatMap_congr hsame, List.flatMap_singleton']

theorem toCRLF_intercalate {ls : List (List Char)} (hls : ∀ line ∈ ls, '\n' ∉ line) (n : Nat) :
    toCRLF (['\n'].intercalate ls) =
      ['\n'].intercalate (linesWithMargins (Margins.crlf (n + ls.length)) n ls) := by
  induction ls generalizing n with
  | nil => rfl
  | cons line ls ih =>
    obtain ⟨hline, hls⟩ := List.forall_mem_cons.1 hls
    rw [linesWithMargins_cons, List.length_cons]
    cases ls with
    | nil =>
      have hlast : Margins.crlf (n + 1) n = .none := if_neg (Nat.lt_irrefl (n + 1))
      have hnone : Margins.none.around line = line := List.append_nil line
      rw [List.intercalate_singleton, toCRLF_of_not_mem hline, List.length_nil, Nat.zero_add,
        hlast, hnone]
      exact List.intercalate_singleton.symm
    | cons next ls =>
      have hother : Margins.crlf (n + ((next :: ls).length + 1)) n = .carriageReturn :=
        if_pos (by rw [List.length_cons]; omega)
      have hrest := ih hls (n + 1)
      rw [Nat.add_right_comm n 1] at hrest
      have hne := List.cons_ne_nil next ls
      rw [List.intercalate_cons_of_ne_nil hne, toCRLF_append, toCRLF_append,
        toCRLF_of_not_mem hline, hrest, hother,
        List.intercalate_cons_of_ne_nil (linesWithMargins_ne_nil hne)]
      simp [Margins.around, Margins.carriageReturn, toCRLF, Nat.add_assoc]

/-- line ends of two characters are margins -/
theorem toCRLF_eq_withMargins (s : List Char) :
    toCRLF s = withMargins (Margins.crlf (lineCount s)) s := by
  have h := toCRLF_intercalate (fun _ => newline_not_mem_of_mem_lines (s := s)) 0
  rwa [intercalate_lines, Nat.zero_add] at h

/-- **White space around lines.**  Margins around the lines of a text change neither the findings
of the four other rules nor its metrics.  The rule for arithmetic has one finding more on each line
that ends open and gets something behind it, and no other change.  Line ends of two characters are
margins. -/
theorem findings_with_margins (m : Nat → Margins) (s : List Char) :
    (lines (withMargins m s) = (lines s).zipIdx.map fun (line, i) =>
        (m i).before ++ line ++ (m i).behind) ∧
    (∀ r ∈ [Rule.reentrancy, .missingAccessControl, .uncheckedCall, .timestampDependence],
      r.findings (withMargins m s) = r.findings s) ∧
    (lineCount (withMargins m s) = lineCount s ∧
      ComplexityFactors.ofSource (withMargins m s) = .ofSource s ∧
      GasIssues.ofSource (withMargins m s) = .ofSource s ∧
      QualityIndicators.ofSource (withMargins m s) = .ofSource s ∧
      ∀ (α : Type) [ScoreNumber α],
        (FileMetrics.ofSource (withMargins m s) : FileMetrics α) = .ofSource s) ∧
    (Rule.integerOverflow.findings s = ((lines s).zipIdx.flatMap fun (line, i) =>
        Rule.integerOverflow.findingsOnLine (i + 1) line) ∧
      Rule.integerOverflow.findings (withMargins m s) = ((lines s).zipIdx.flatMap fun (line, i) =>
        Rule.integerOverflow.findingsOnLine (i + 1) line ++
          if (m i).behind ≠ [] ∧ EndsOpen line then
            [.ofLine Rule.integerOverflow.about (i + 1) line]
          else []) ∧
      ((∀ i, (m i).behind = []) →
        Rule.integerOverflow.findings (withMargins m s) = Rule.integerOverflow.findings s)) ∧
    toCRLF s = withMargins (Margins.crlf (lineCount s)) s := by
  have hframed : ∀ r ∈
      [Rule.reentrancy, .missingAccessControl, .uncheckedCall, .timestampDependence],
      r ∈ catalogue ∧ r.IsFramed := by decide +kernel
  have harithmetic : Rule.integerOverflow ∈ catalogue := by decide +kernel
  have hnever : ¬ Rule.integerOverflow.exemption.coversSource s := Bool.false_ne_true
  have hplain : Rule.integerOverflow.findings s = ((lines s).zipIdx.flatMap fun (line, i) =>
      Rule.integerOverflow.findingsOnLine (i + 1) line) := if_neg hnever
  have hmargins : Rule.integerOverflow.findings (withMargins m s) =
      ((lines s).zipIdx.flatMap fun (line, i) =>
        Rule.integerOverflow.findingsOnLine (i + 1) line ++
          if (m i).behind ≠ [] ∧ EndsOpen line then
            [.ofLine Rule.integerOverflow.about (i + 1) line]
          else []) := by
    rw [Rule.findings_withMargins harithmetic, if_neg hnever]
    simp only [Rule.findingsOnLine_integerOverflow_around]
  refine ⟨lines_withMargins, ?_, ⟨lineCount_withMargins, ?_, ?_, ?_, ?_⟩,
    ⟨hplain, hmargins, ?_⟩, toCRLF_eq_withMargins s⟩
  · intro r hr
    obtain ⟨hmem, hframed⟩ := hframed r hr
    exact hframed.findings_withMargins hmem m s
  · exact congrArg ComplexityFactors.ofLines trimmedLines_withMargins
  · exact congrArg GasIssues.ofLines trimmedLines_withMargins
  · exact congrArg QualityIndicators.ofLines trimmedLines_withMargins
  · intro α _
    simp only [FileMetrics.ofSource, ComplexityFactors.ofSource, GasIssues.ofSource,
      QualityIndicators.ofSource, trimmedLines_withMargins, lineCount_withMargins]
  · intro hnone
    rw [hmargins, hplain]
    simp [hnone]

/-- A sum that goes on in the next line is reported when the line ends with a carriage return, but
not when the lines are indented. -/
theorem findings_with_margins_of_sum :
    let s := "total = a +\nnow".toList
    let indented (_ : Nat) : Margins := ⟨['\t'], [], fun _ h => List.mem_singleton.1 h ▸ by decide⟩
    (Rule.timestampDependence ∈
        [Rule.reentrancy, .missingAccessControl, .uncheckedCall, .timestampDependence] ∧
      Rule.timestampDependence.findings (withMargins indented s) =
        Rule.timestampDependence.findings s) ∧
    ((∀ i, (indented i).behind = []) ∧
      Rule.integerOverflow.findings (withMargins indented s) = Rule.integerOverflow.findings s) ∧
    Rule.integerOverflow.findings s = [] ∧
    Rule.integerOverflow.findings (toCRLF s) =
      [.ofLine Rule.integerOverflow.about 1 "total = a +".toList] := by
  intro s indented
  have hr : Rule.timestampDependence ∈
      [Rule.reentrancy, .missingAccessControl, .uncheckedCall, .timestampDependence] := by
    decide +kernel
  have hbehind : ∀ i, (indented i).behind = [] := fun _ => rfl
  have hmargins := findings_with_margins indented s
  refine ⟨⟨hr, hmargins.2.1 _ hr⟩, ⟨hbehind, hmargins.2.2.2.1.2.2 hbehind⟩, ?_, ?_⟩
  · decide +kernel
  · decide +kernel

end ContractAudit
