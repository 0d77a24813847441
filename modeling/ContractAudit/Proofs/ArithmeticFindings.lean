import ContractAudit.Proofs.PatternLanguages
import ContractAudit.Proofs.RuleFindings

/-!
# Findings of arithmetic

The rule that looks for arithmetic has two patterns for each operator.  Both let white space stand
after the operator, but only one of them needs it: where something other than an equals sign has to
follow, the first character after the operator decides.

* `SomeOccurrence P op line`: the operator stands somewhere in the line, before a text with the
  property `P`.
* `ReachesEquals`, `GoesOnOtherwise`: the properties that the two patterns ask for.
* `Rule.firesOn_compoundAssignment_iff`, `Rule.firesOn_binaryOperation_iff`: when they fire.
* `Rule.filter_looks_of_line`: the looks of a rule at one line.

The main statement is `arithmetic_findings`.
-/

namespace ContractAudit

open Text Computability LinePattern

/-- the operator stands somewhere in the line, before a text with the property -/
def SomeOccurrence (P : List Char → Prop) (op : Char) (line : List Char) : Prop :=
  ∃ before rest, line = before ++ op :: rest ∧ P rest

/-- the text begins with an equals sign, or with white space before one -/
def ReachesEquals (rest : List Char) : Prop :=
  ∃ gap after, rest = gap ++ '=' :: after ∧ ∀ c ∈ gap, c ∈ whiteSpace

/-- the text begins with a character that is no equals sign -/
def GoesOnOtherwise (rest : List Char) : Prop := ∃ c after, rest = c :: after ∧ c ≠ '='

/-! ## when the patterns fire -/

/-- what a pattern that begins with an operator reads behind it -/
theorem exists_literal_mul_iff {L : Language Char} {op : Char} {line : List Char} :
    (∃ w ∈ literal (String.singleton op) * L, w <:+: line) ↔
      SomeOccurrence (fun rest => ∃ w ∈ L, w <+: rest) op line := by
  constructor
  · rintro ⟨_, ⟨_, rfl, w, hw, rfl⟩, before, after, rfl⟩
    exact ⟨before, w ++ after, by simp, w, hw, after, rfl⟩
  · rintro ⟨before, _, rfl, w, hw, after, rfl⟩
    exact ⟨_, ⟨_, rfl, w, hw, rfl⟩, before, after, by simp⟩

theorem exists_space_mul_literal_iff {rest : List Char} :
    (∃ w ∈ space∗ * literal "=", w <+: rest) ↔ ReachesEquals rest := by
  constructor
  · rintro ⟨_, ⟨gap, hgap, _, rfl, rfl⟩, after, rfl⟩
    exact ⟨gap, after, by simp, mem_kstar_oneChar.1 hgap⟩
  · rintro ⟨gap, after, rfl, hgap⟩
    exact ⟨_, ⟨gap, mem_kstar_oneChar.2 hgap, _, rfl, rfl⟩, after, by simp⟩

/-- The run of white space can be taken to be empty: if it is not, it begins with a character that
is itself no equals sign. -/
theorem exists_space_mul_anyBut_iff {rest : List Char} :
    (∃ w ∈ space∗ * anyBut '=', w <+: rest) ↔ GoesOnOtherwise rest := by
  constructor
  · rintro ⟨_, ⟨gap, hgap, _, ⟨d, hd, rfl⟩, rfl⟩, after, rfl⟩
    cases gap with
    | nil => exact ⟨d, after, rfl, hd⟩
    | cons c gap =>
      have hc : c ∈ whiteSpace := mem_kstar_oneChar.1 hgap c List.mem_cons_self
      exact ⟨c, _, rfl, fun h => absurd (h ▸ hc) (by decide)⟩
  · rintro ⟨c, after, rfl, hc⟩
    have hnil : [] ∈ space∗ := mem_kstar_oneChar.2 fun _ h => (nomatch h)
    exact ⟨[c], ⟨[], hnil, [c], ⟨c, hc, rfl⟩, rfl⟩, after, rfl⟩

namespace Rule

theorem firesOn_compoundAssignment_iff {op : Char} {line : List Char} :
    (compoundAssignment op).firesOn line ↔ SomeOccurrence ReachesEquals op line := by
  rw [hasLanguage_compoundAssignment op line, mul_assoc, exists_literal_mul_iff]
  simp only [SomeOccurrence, exists_space_mul_literal_iff]

theorem firesOn_binaryOperation_iff {op : Char} {line : List Char} :
    (binaryOperation op).firesOn line ↔ SomeOccurrence GoesOnOtherwise op line := by
  rw [hasLanguage_binaryOperation op line, mul_assoc, exists_literal_mul_iff]
  simp only [SomeOccurrence, exists_space_mul_anyBut_iff]

instance (op : Char) (line : List Char) : Decidable (SomeOccurrence ReachesEquals op line) :=
  decidable_of_iff _ firesOn_compoundAssignment_iff

instance (op : Char) (line : List Char) : Decidable (SomeOccurrence GoesOnOtherwise op line) :=
  decidable_of_iff _ firesOn_binaryOperation_iff

/-! ## one line -/

/-- the four operators, in the order of the patterns -/
def operators : List Char := ['+', '-', '*', '/']

/-- the white space in the pattern does not matter -/
theorem firesOn_binaryOperation_iff_immediate {op : Char} {line : List Char} :
    (binaryOperation op).firesOn line ↔
      (seq [.one (.exactly op), .one (.except '=')]).firesOn line := by
  have hlanguage : Piece.language [.one (.exactly op), .one (.except '=')] =
      literal (String.singleton op) * anyBut '=' := by
    rw [← language_exactly, ← oneChar_except, ← mul_one (oneChar _), ← Piece.language_nil,
      ← Piece.language_one, ← Piece.language_append]
    rfl
  have hnext (rest : List Char) : (∃ w ∈ anyBut '=', w <+: rest) ↔ GoesOnOtherwise rest := by
    constructor
    · rintro ⟨_, ⟨c, hc, rfl⟩, after, rfl⟩
      exact ⟨c, after, rfl, hc⟩
    · rintro ⟨c, after, rfl, hc⟩
      exact ⟨[c], ⟨c, hc, rfl⟩, after, rfl⟩
  rw [firesOn_binaryOperation_iff, hasLanguage_seq _ line, hlanguage, exists_literal_mul_iff]
  simp only [SomeOccurrence, hnext]

/-- the patterns that fire on a line: an operator before an equals sign, then one before something
else -/
def firingOn (line : List Char) : List LinePattern :=
  (operators.filter fun op => SomeOccurrence ReachesEquals op line).map compoundAssignment ++
    (operators.filter fun op => SomeOccurrence GoesOnOtherwise op line).map binaryOperation

theorem filter_patterns_integerOverflow (line : List Char) :
    integerOverflow.patterns.filter (·.firesOn line) = firingOn line := by
  have hpatterns : integerOverflow.patterns =
      operators.map compoundAssignment ++ operators.map binaryOperation := rfl
  have hcompound : (·.firesOn line) ∘ compoundAssignment =
      fun op => decide (SomeOccurrence ReachesEquals op line) := by
    funext op
    rw [Function.comp_apply, Bool.eq_iff_iff, firesOn_compoundAssignment_iff, decide_eq_true_iff]
  have hbinary : (·.firesOn line) ∘ binaryOperation =
      fun op => decide (SomeOccurrence GoesOnOtherwise op line) := by
    funext op
    rw [Function.comp_apply, Bool.eq_iff_iff, firesOn_binaryOperation_iff, decide_eq_true_iff]
  rw [hpatterns, List.filter_append, List.filter_map, List.filter_map, hcompound, hbinary, firingOn]

theorem length_firingOn_le (line : List Char) : (firingOn line).length ≤ 8 := by
  rw [← filter_patterns_integerOverflow]
  exact List.length_filter_le _ _

/-- a line with the last of the three markers has the second one -/
theorem coversLine_integerOverflow_iff {line : List Char} :
    integerOverflow.exemption.coversLine line ↔
      "safe".toList <:+: line ∨ "checked".toList <:+: line := by
  have hlast : "checked".toList <:+: "unchecked".toList := by decide
  show hasAnyFactor (words ["safe", "checked", "unchecked"]) line ↔ _
  rw [hasAnyFactor_iff]
  simp only [words, List.map_cons, List.map_nil, List.mem_cons, List.not_mem_nil, or_false,
    exists_eq_or_imp, exists_eq_left]
  exact or_congr_right ⟨fun h => h.elim id hlast.trans, .inl⟩

/-- the looks of a rule at one line of a source -/
theorem filter_looks_of_line {r : Rule} {s line : List Char} {i : Nat}
    (hline : (lines s)[i]? = some line) :
    ((r.looks s).filter fun x => x.IsHit s ∧ x.number = i + 1) =
      (r.looksAtLine (i + 1) line).filter fun x => x.IsHit s := by
  have hkey : (r.looks s).filter (fun x => x.IsHit s ∧ x.number = i + 1) =
      (r.looksAtLine (i + 1) line).filter fun x => x.IsHit s ∧ x.number = i + 1 := by
    have hmem : (line, i) ∈ (lines s).zipIdx := List.mk_mem_zipIdx_iff_getElem?.2 hline
    refine filter_flatMap_of_key Prod.snd ?_ hmem ?_
    · rw [List.zipIdx_map_snd]
      exact List.nodup_range'
    · rintro ⟨l, j⟩ _ x hx hwanted
      obtain ⟨p, -, rfl⟩ := List.mem_map.1 hx
      exact Nat.succ.inj (of_decide_eq_true hwanted).2
  rw [hkey]
  refine List.filter_congr fun x hx => ?_
  obtain ⟨p, -, rfl⟩ := List.mem_map.1 hx
  simp

end Rule

theorem reachesEquals_of_run {gap rest : List Char} (hgap : ∀ c ∈ gap, c ∈ whiteSpace) :
    ReachesEquals (gap ++ '=' :: rest) := ⟨gap, rest, rfl, hgap⟩

/-- with white space in between both patterns fire -/
theorem goesOnOtherwise_of_run {gap rest : List Char} (hne : gap ≠ [])
    (hgap : ∀ c ∈ gap, c ∈ whiteSpace) : GoesOnOtherwise (gap ++ rest) := by
  obtain ⟨c, gap, rfl⟩ := List.exists_cons_of_ne_nil hne
  have hc : c ∈ whiteSpace := hgap c List.mem_cons_self
  exact ⟨c, gap ++ rest, rfl, fun h => absurd (h ▸ hc) (by decide)⟩

/-- **Findings of arithmetic.**  On a line without a safety marker there is one finding for each
operator that reaches an equals sign over white space, and then one for each operator that is
followed by something other than an equals sign. -/
theorem arithmetic_findings {s line : List Char} {i : Nat} (hline : (lines s)[i]? = some line) :
    let hits := (Rule.integerOverflow.looks s).filter fun x => x.IsHit s ∧ x.number = i + 1
    ((Rule.integerOverflow.findings s).filter (·.lineNumber = i + 1) = hits.map Look.finding ∧
      hits.map (·.pattern) =
        (if "safe".toList <:+: line ∨ "checked".toList <:+: line then []
        else ((['+', '-', '*', '/'].filter fun op => SomeOccurrence ReachesEquals op line).map
            Rule.compoundAssignment) ++
          (['+', '-', '*', '/'].filter fun op => SomeOccurrence GoesOnOtherwise op line).map
            Rule.binaryOperation) ∧
      (∀ x ∈ hits, x.finding = .ofLine Rule.integerOverflow.about (i + 1) line) ∧
      hits.length ≤ 8) ∧
    (∀ op l, (Rule.binaryOperation op).firesOn l ↔
      (seq [.one (.exactly op), .one (.except '=')]).firesOn l) ∧
    (¬ ReachesEquals [] ∧ ¬ GoesOnOtherwise []) ∧
    ∀ gap rest, (∀ c ∈ gap, c ∈ whiteSpace) → ReachesEquals (gap ++ '=' :: rest) ∧
      (GoesOnOtherwise (gap ++ '=' :: rest) ↔ gap ≠ []) := by
  intro hits
  have hlooks : hits = (Rule.integerOverflow.looksAtLine (i + 1) line).filter fun x => x.IsHit s :=
    Rule.filter_looks_of_line hline
  have hpatterns : hits.map (·.pattern) =
      if "safe".toList <:+: line ∨ "checked".toList <:+: line then [] else Rule.firingOn line := by
    have hhit (p : LinePattern) : (Look.mk Rule.integerOverflow (i + 1) line p).IsHit s ↔
        ¬ ("safe".toList <:+: line ∨ "checked".toList <:+: line) ∧ p.firesOn line := by
      rw [← Rule.coversLine_integerOverflow_iff, firesOn_iff]
      exact and_iff_right Bool.false_ne_true
    rw [hlooks, Rule.looksAtLine, List.filter_map, List.map_map, Function.comp_def,
      Function.comp_def, List.map_id']
    split_ifs with hmarked
    · rw [List.filter_eq_nil_iff]
      intro p _ h
      exact ((hhit p).1 (of_decide_eq_true h)).1 hmarked
    · rw [← Rule.filter_patterns_integerOverflow]
      refine List.filter_congr fun p _ => ?_
      rw [Bool.eq_iff_iff, decide_eq_true_iff, hhit p]
      exact and_iff_right hmarked
  have hfinding : ∀ x ∈ hits, x.finding = .ofLine Rule.integerOverflow.about (i + 1) line := by
    intro x hx
    rw [hlooks] at hx
    obtain ⟨p, -, rfl⟩ := List.mem_map.1 (List.mem_filter.1 hx).1
    rfl
  refine ⟨⟨?_, hpatterns, hfinding, ?_⟩, fun _ _ => Rule.firesOn_binaryOperation_iff_immediate,
    ⟨?_, ?_⟩, fun gap rest hgap => ⟨reachesEquals_of_run hgap, ?_⟩⟩
  · rw [Rule.findings_eq, List.filter_map, List.filter_filter]
    refine congrArg (List.map Look.finding) (List.filter_congr fun x _ => ?_)
    rw [Bool.decide_and, Bool.and_comm]
    rfl
  · rw [← List.length_map (f := (·.pattern)), hpatterns]
    split_ifs
    · exact Nat.zero_le 8
    · exact Rule.length_firingOn_le line
  · rintro ⟨gap, after, h, -⟩
    exact absurd h.symm (List.append_ne_nil_of_right_ne_nil _ (List.cons_ne_nil _ _))
  · rintro ⟨c, after, h, -⟩
    cases h
  · constructor
    · rintro ⟨c, after, h, hc⟩ rfl
      exact hc (List.cons.inj h).1.symm
    · exact fun hne => goesOnOtherwise_of_run hne hgap

/-- A sum whose equals sign stands behind a no-break space counts twice, a difference right before
its equals sign once, and a quotient at the end of the line not at all. -/
theorem arithmetic_findings_second_line :
    (lines "int a;\na+\u00a0=b;c-=d/".toList)[1]? = some "a+\u00a0=b;c-=d/".toList ∧
    ((Rule.integerOverflow.looks "int a;\na+\u00a0=b;c-=d/".toList).filter fun x =>
        x.IsHit "int a;\na+\u00a0=b;c-=d/".toList ∧ x.number = 1 + 1).map (·.pattern) =
      [Rule.compoundAssignment '+', Rule.compoundAssignment '-', Rule.binaryOperation '+'] := by
  have hline : (lines "int a;\na+\u00a0=b;c-=d/".toList)[1]? = some "a+\u00a0=b;c-=d/".toList := by
    decide +kernel
  refine ⟨hline, (arithmetic_findings hline).1.2.1.trans ?_⟩
  decide +kernel

end ContractAudit
