import Mathlib
import ContractAudit.Analysis.FileMetrics

/-!
# Scores in exact numbers

Where the operations on numbers are exact, the scores of a text that is joined of two by a line feed
follow from those of the two.  Its lines are theirs, and so are its counts; a score per line is
between the two, and points that are taken off for lines are taken off together.

* `ScoreNumber ℚ`: scores in fractions.
* `ComplexityFactors.ofSource_joined` and its like: the counts of joined texts.
* `ComplexityFactors.le_lineCount` and its like: no count is larger than the number of lines.
* `min_le_mediant`, `mediant_le_max`: two fractions and the one that is made of the sums.
* `ComplexityFactors.score_eq`, `GasIssues.score_eq`: the scores as fractions.

The main statement is `joined_scores`.
-/

namespace ContractAudit

open Text

/-- the operations on fractions, which are exact -/
instance : ScoreNumber ℚ where
  ofCount n := n
  add := (· + ·)
  sub := (· - ·)
  mul := (· * ·)
  div := (· / ·)
  smaller := min
  larger := max

/-! ## counts -/

theorem trimmedLines_joined (a b : List Char) :
    trimmedLines (a ++ '\n' :: b) = trimmedLines a ++ trimmedLines b := by
  rw [trimmedLines, lines_append, List.map_append]
  rfl

theorem length_trimmedLines (s : List Char) : (trimmedLines s).length = lineCount s :=
  List.length_map _

namespace ComplexityFactors

instance : Add ComplexityFactors where
  add f g :=
    ⟨f.controlFlow + g.controlFlow, f.functions + g.functions,
      f.stateVariables + g.stateVariables, f.externalCalls + g.externalCalls⟩

/-- all four counts -/
def counts (f : ComplexityFactors) : List Nat :=
  [f.controlFlow, f.functions, f.stateVariables, f.externalCalls]

theorem ofSource_joined (a b : List Char) :
    ofSource (a ++ '\n' :: b) = ofSource a + ofSource b := by
  simp only [ofSource, ofLines, trimmedLines_joined, List.countP_append]
  rfl

theorem le_lineCount (s : List Char) : ∀ n ∈ (ofSource s).counts, n ≤ lineCount s := by
  rw [← length_trimmedLines]
  simp [counts, ofSource, ofLines, List.countP_le_length]

theorem weighted_add (f g : ComplexityFactors) : (f + g).weighted = f.weighted + g.weighted := by
  show (f.controlFlow + g.controlFlow) * 2 + (f.functions + g.functions) * 3 +
    (f.stateVariables + g.stateVariables) + (f.externalCalls + g.externalCalls) * 5 = _
  unfold weighted
  omega

end ComplexityFactors

namespace GasIssues

instance : Add GasIssues where
  add g h :=
    ⟨g.storageOperations + h.storageOperations, g.loops + h.loops,
      g.externalCalls + h.externalCalls, g.complexMath + h.complexMath,
      g.stringOperations + h.stringOperations⟩

/-- all five counts -/
def counts (g : GasIssues) : List Nat :=
  [g.storageOperations, g.loops, g.externalCalls, g.complexMath, g.stringOperations]

theorem ofSource_joined (a b : List Char) :
    ofSource (a ++ '\n' :: b) = ofSource a + ofSource b := by
  simp only [ofSource, ofLines, trimmedLines_joined, List.countP_append]
  rfl

theorem le_lineCount (s : List Char) : ∀ n ∈ (ofSource s).counts, n ≤ lineCount s := by
  rw [← length_trimmedLines]
  simp [counts, ofSource, ofLines, List.countP_le_length]

theorem total_add (g h : GasIssues) : (g + h).total = g.total + h.total := by
  show g.storageOperations + h.storageOperations + (g.loops + h.loops) +
    (g.externalCalls + h.externalCalls) + (g.complexMath + h.complexMath) +
    (g.stringOperations + h.stringOperations) = _
  unfold total
  omega

end GasIssues

namespace QualityIndicators

instance : Add QualityIndicators where
  add q r :=
    ⟨q.commentLines + r.commentLines, q.namingConventionHits + r.namingConventionHits,
      q.errorHandling + r.errorHandling, q.functions + r.functions,
      q.securityPatterns + r.securityPatterns⟩

/-- all five counts -/
def counts (q : QualityIndicators) : List Nat :=
  [q.commentLines, q.namingConventionHits, q.errorHandling, q.functions, q.securityPatterns]

theorem ofSource_joined (a b : List Char) :
    ofSource (a ++ '\n' :: b) = ofSource a + ofSource b := by
  simp only [ofSource, ofLines, trimmedLines_joined, List.countP_append]
  rfl

theorem le_lineCount (s : List Char) : ∀ n ∈ (ofSource s).counts, n ≤ lineCount s := by
  rw [← length_trimmedLines]
  simp [counts, ofSource, ofLines, List.countP_le_length]

end QualityIndicators

/-! ## fractions -/

section
variable {p q m n : ℚ} (hm : 0 < m) (hn : 0 < n)
include hm hn

/-- the sums of numerators and denominators make a fraction between the two -/
theorem mediant_le_max : (p + q) / (m + n) ≤ max (p / m) (q / n) := by
  have hp : p ≤ max (p / m) (q / n) * m := (div_le_iff₀ hm).1 (le_max_left _ _)
  have hq : q ≤ max (p / m) (q / n) * n := (div_le_iff₀ hn).1 (le_max_right _ _)
  rw [div_le_iff₀ (add_pos hm hn), mul_add]
  exact add_le_add hp hq

theorem min_le_mediant : min (p / m) (q / n) ≤ (p + q) / (m + n) := by
  have hp : min (p / m) (q / n) * m ≤ p := (le_div_iff₀ hm).1 (min_le_left _ _)
  have hq : min (p / m) (q / n) * n ≤ q := (le_div_iff₀ hn).1 (min_le_right _ _)
  rw [le_div_iff₀ (add_pos hm hn), mul_add]
  exact add_le_add hp hq

end

/-- what is left of 100 points if some are taken off after others -/
theorem left_add {x y : ℚ} (hx : 0 ≤ x) (hy : 0 ≤ y) :
    max (100 - (x + y)) 0 = max 0 (max (100 - x) 0 + max (100 - y) 0 - 100) := by
  by_cases h : x ≤ 100 ∧ y ≤ 100
  · rw [max_eq_left (sub_nonneg.2 h.1), max_eq_left (sub_nonneg.2 h.2), max_comm]
    congr 1
    ring
  · -- one of the two takes off everything
    have hleft {z : ℚ} (hz : 0 ≤ z) : max (100 - z) 0 ≤ 100 :=
      max_le (sub_le_self 100 hz) (by norm_num)
    have hsum : max (100 - x) 0 + max (100 - y) 0 ≤ 100 := by
      rcases not_and_or.1 h with h | h
      · rw [max_eq_right (by linarith), zero_add]
        exact hleft hy
      · rw [max_eq_right (a := 100 - y) (by linarith), add_zero]
        exact hleft hx
    rw [max_eq_left (sub_nonpos.2 hsum), max_eq_right]
    rcases not_and_or.1 h with h | h <;> linarith

/-! ## scores -/

namespace ComplexityFactors

/-- ten points for each point per line, at most 100 -/
def capped (x : ℚ) : ℚ := min (x * 10) 100

theorem monotone_capped : Monotone capped := fun _ _ hxy =>
  min_le_min_right 100 (mul_le_mul_of_nonneg_right hxy (by norm_num))

theorem score_eq (s : List Char) : (FileMetrics.ofSource s : FileMetrics ℚ).complexityScore =
    capped ((ofSource s).weighted / lineCount s) := by
  have hlines : max (lineCount s) 1 = lineCount s := Nat.max_eq_left (lineCount_pos s)
  show min (((ofSource s).weighted : ℚ) / (max (lineCount s) 1 : ℕ) * (10 : ℕ)) (100 : ℕ) = _
  rw [hlines, Nat.cast_ofNat, Nat.cast_ofNat]
  rfl

theorem score_joined (a b : List Char) :
    let complexity (s : List Char) : ℚ := (FileMetrics.ofSource s).complexityScore
    min (complexity a) (complexity b) ≤ complexity (a ++ '\n' :: b) ∧
      complexity (a ++ '\n' :: b) ≤ max (complexity a) (complexity b) := by
  intro complexity
  have hpos (s : List Char) : (0 : ℚ) < lineCount s := Nat.cast_pos.2 (lineCount_pos s)
  simp only [complexity, score_eq]
  rw [ofSource_joined, weighted_add, lineCount_append, Nat.cast_add, Nat.cast_add,
    ← monotone_capped.map_min, ← monotone_capped.map_max]
  exact ⟨monotone_capped (min_le_mediant (hpos a) (hpos b)),
    monotone_capped (mediant_le_max (hpos a) (hpos b))⟩

end ComplexityFactors

namespace GasIssues

theorem score_eq (s : List Char) : (FileMetrics.ofSource s : FileMetrics ℚ).gasEfficiencyScore =
    max (100 - ((ofSource s).total : ℚ) * 5) 0 := by
  show max ((100 : ℕ) - ((ofSource s).total : ℚ) * (5 : ℕ)) (0 : ℕ) = _
  rw [Nat.cast_ofNat, Nat.cast_ofNat, Nat.cast_zero]

theorem score_joined (a b : List Char) :
    let gas (s : List Char) : ℚ := (FileMetrics.ofSource s).gasEfficiencyScore
    gas (a ++ '\n' :: b) = max 0 (gas a + gas b - 100) ∧ gas (a ++ '\n' :: b) ≤ gas a ∧
      gas (a ++ '\n' :: b) ≤ gas b := by
  intro gas
  have hpos (s : List Char) : 0 ≤ ((ofSource s).total : ℚ) * 5 := by positivity
  simp only [gas, score_eq]
  rw [ofSource_joined, total_add, Nat.cast_add, add_mul]
  refine ⟨left_add (hpos a) (hpos b), max_le_max_right 0 (sub_le_sub_left ?_ 100),
    max_le_max_right 0 (sub_le_sub_left ?_ 100)⟩
  · exact le_add_of_nonneg_right (hpos b)
  · exact le_add_of_nonneg_left (hpos a)

end GasIssues

/-- **Scores of joined texts.**  A text that is joined of two has their lines and, of every kind of
lines that count for a score, as many as the two together; no text has more of a kind than lines.
The complexity of the joined text is between those of the two.  The points that gas costs them are
all taken off, so that the joined text is left with no more than either of them. -/
theorem joined_scores (a b : List Char) :
    (lineCount (a ++ '\n' :: b) = lineCount a + lineCount b ∧
      ComplexityFactors.ofSource (a ++ '\n' :: b) = .ofSource a + .ofSource b ∧
      GasIssues.ofSource (a ++ '\n' :: b) = .ofSource a + .ofSource b ∧
      QualityIndicators.ofSource (a ++ '\n' :: b) = .ofSource a + .ofSource b) ∧
    (∀ s, (∀ n ∈ (ComplexityFactors.ofSource s).counts, n ≤ lineCount s) ∧
      (∀ n ∈ (GasIssues.ofSource s).counts, n ≤ lineCount s) ∧
      ∀ n ∈ (QualityIndicators.ofSource s).counts, n ≤ lineCount s) ∧
    let complexity (s : List Char) : ℚ := (FileMetrics.ofSource s).complexityScore
    let gas (s : List Char) : ℚ := (FileMetrics.ofSource s).gasEfficiencyScore
    (min (complexity a) (complexity b) ≤ complexity (a ++ '\n' :: b) ∧
      complexity (a ++ '\n' :: b) ≤ max (complexity a) (complexity b)) ∧
    gas (a ++ '\n' :: b) = max 0 (gas a + gas b - 100) ∧
    gas (a ++ '\n' :: b) ≤ gas a ∧ gas (a ++ '\n' :: b) ≤ gas b :=
  ⟨⟨lineCount_append a b, ComplexityFactors.ofSource_joined a b, GasIssues.ofSource_joined a b,
      QualityIndicators.ofSource_joined a b⟩,
    fun s => ⟨ComplexityFactors.le_lineCount s, GasIssues.le_lineCount s,
      QualityIndicators.le_lineCount s⟩,
    ComplexityFactors.score_joined a b, GasIssues.score_joined a b⟩

end ContractAudit
