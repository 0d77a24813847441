import Mathlib.Algebra.Order.Ring.Nat
import Mathlib.Data.List.Basic
import ContractAudit.Risk

/-!
# Risk scores in exact numbers

Scores are added up step by step, and every step stops at the largest score.  What comes out is the
exact sum, which stops once.

* `foldl_addScores_min`: the sum of scores that stop is the exact sum, stopped.
* `weightedSum_eq`, `scanRiskScore_eq`, `auditRiskScore_eq`: weighted counts.
* `sum_map_severities`: a sum over severities, by their counts.
* `weightedSum_ofList`: the weights of severities, added up one by one.
* `securityScore_eq`, `securityScore_float`: what is left of 100 points.
* `auditRiskLevel_eq`: the levels of scores in an audit.
* `scanRiskLevel_min`, `auditRiskLevel_min`: where scores stop makes no difference to their levels.
-/

namespace ContractAudit

/-! ## sums that stop -/

theorem foldl_addScores_min (l : List Nat) {a : Nat} (ha : a ≤ maxScore) :
    (l.map fun x => min x maxScore).foldl addScores a = min (a + l.sum) maxScore := by
  induction l generalizing a with
  | nil =>
    rw [List.sum_nil, Nat.add_zero]
    exact (Nat.min_eq_left ha).symm
  | cons x l ih =>
    rw [List.map_cons, List.foldl_cons, addScores, ih (Nat.min_le_right _ _), List.sum_cons]
    omega

theorem scaleCount_eq (weight count : Nat) :
    scaleCount weight count = min (weight * count) maxScore := by
  rw [scaleCount]
  rcases Nat.eq_zero_or_pos weight with rfl | hweight
  · rw [Nat.zero_mul, Nat.zero_mul]
  · rcases Nat.le_total count maxScore with hcount | hcount
    · rw [Nat.min_eq_left hcount]
    · -- both products are too large
      have hmax : maxScore ≤ weight * maxScore := Nat.le_mul_of_pos_left _ hweight
      have hproduct : maxScore ≤ weight * count :=
        Nat.le_trans hmax (Nat.mul_le_mul_left weight hcount)
      rw [Nat.min_eq_right hcount, Nat.min_eq_right hmax, Nat.min_eq_right hproduct]

theorem weightedSum_eq (weight : Severity → Nat) (n : SeverityCounts) :
    weightedSum weight n =
      min (Severity.descending.map fun v => weight v * n.get v).sum maxScore := by
  have hscale : (fun v => scaleCount (weight v) (n.get v)) =
      fun v => min (weight v * n.get v) maxScore := funext fun v => scaleCount_eq _ _
  have h := foldl_addScores_min (Severity.descending.map fun v => weight v * n.get v)
    (Nat.zero_le maxScore)
  rw [List.map_map, Nat.zero_add] at h
  rw [weightedSum, hscale]
  exact h

theorem scanRiskScore_eq (n : SeverityCounts) : scanRiskScore n =
    min (10 * n.critical + 7 * n.high + 4 * n.medium + n.low) 4294967295 := by
  rw [scanRiskScore, weightedSum_eq]
  simp only [Severity.descending, List.map_cons, List.map_nil, List.sum_cons, List.sum_nil,
    Severity.scanWeight, SeverityCounts.get, maxScore]
  congr 1
  omega

theorem auditRiskScore_eq (n : SeverityCounts) : auditRiskScore n =
    min (10 * n.critical + 7 * n.high + 3 * n.medium + n.low) 4294967295 := by
  rw [auditRiskScore, weightedSum_eq]
  simp only [Severity.descending, List.map_cons, List.map_nil, List.sum_cons, List.sum_nil,
    Severity.auditWeight, SeverityCounts.get, maxScore]
  congr 1
  omega

/-! ## penalties -/

theorem sum_map_severities (weight : Severity → Nat) (l : List Severity) :
    (l.map weight).sum =
      (Severity.descending.map fun v => weight v * (SeverityCounts.ofList l).get v).sum := by
  induction l with
  | nil => simp [Severity.descending, SeverityCounts.get_ofList]
  | cons v l ih =>
    rw [List.map_cons, List.sum_cons, ih]
    simp only [Severity.descending, List.map_cons, List.map_nil, List.sum_cons, List.sum_nil,
      SeverityCounts.get_ofList, List.count_cons]
    cases v <;> simp [Nat.mul_add] <;> omega

theorem weightedSum_ofList (weight : Severity → Nat) (l : List Severity) :
    weightedSum weight (.ofList l) = min (l.map weight).sum maxScore := by
  rw [weightedSum_eq, ← sum_map_severities]

theorem totalPenalty_eq (l : List Severity) :
    totalPenalty l = min (l.map Severity.penalty).sum maxScore := by
  have hpenalty : (l.map Severity.penalty).map (fun x => min x maxScore) =
      l.map Severity.penalty := by
    rw [List.map_map]
    refine List.map_congr_left fun v _ => Nat.min_eq_left ?_
    cases v <;> decide
  have h := foldl_addScores_min (l.map Severity.penalty) (Nat.zero_le maxScore)
  rwa [hpenalty, Nat.zero_add] at h

/-- the points that are lost, of a hundred -/
def lostPoints (n : SeverityCounts) : Nat :=
  min 100 (25 * n.critical + 15 * n.high + 5 * n.medium + 2 * n.low)

theorem lostPoints_le (n : SeverityCounts) : lostPoints n ≤ 100 := Nat.min_le_left _ _

theorem lostPoints_ofList (l : List Severity) :
    lostPoints (SeverityCounts.ofList l) = min 100 (l.map Severity.penalty).sum := by
  rw [sum_map_severities, lostPoints]
  simp only [Severity.descending, List.map_cons, List.map_nil, List.sum_cons, List.sum_nil,
    Severity.penalty, SeverityCounts.get]
  omega

section
variable {α : Type} [ScoreNumber α]

theorem securityScore_eq (l : List Severity) : (securityScore l : α) =
    ScoreNumber.sub (ScoreNumber.ofCount 100)
      (ScoreNumber.ofCount (lostPoints (SeverityCounts.ofList l))) := by
  have hlost : min (totalPenalty l) 100 = lostPoints (SeverityCounts.ofList l) := by
    rw [totalPenalty_eq, lostPoints_ofList, maxScore]
    omega
  rw [securityScore, securityScoreOfPenalty, hlost]

end

theorem securityScore_float (l : List Severity) : (securityScore l : Float) =
    Float.ofNat (100 - lostPoints (SeverityCounts.ofList l)) := by
  -- every one of the 101 differences is exact
  have hexact : ∀ k : Fin 101, Float.ofNat 100 - Float.ofNat k = Float.ofNat (100 - k) := by
    decide +kernel
  rw [securityScore_eq]
  exact hexact ⟨lostPoints _, Nat.lt_succ_of_le (lostPoints_le _)⟩

/-! ## levels -/

theorem auditRiskLevel_eq (score : Nat) : auditRiskLevel score =
    if 50 ≤ score then .critical else if 25 ≤ score then .high
    else if 10 ≤ score then .medium else .low := by
  rw [auditRiskLevel, scanRiskLevel]
  split_ifs <;> rfl

/-- a score stops far above the least one of the highest level -/
theorem scanRiskLevel_min (score : Nat) :
    scanRiskLevel (min score maxScore) = scanRiskLevel score := by
  rcases Nat.le_total score maxScore with h | h
  · rw [Nat.min_eq_left h]
  · have hscore : 50 ≤ score := Nat.le_trans (by decide) h
    rw [Nat.min_eq_right h, scanRiskLevel, scanRiskLevel, if_pos hscore]
    rfl

theorem auditRiskLevel_min (score : Nat) :
    auditRiskLevel (min score maxScore) = auditRiskLevel score := by
  rw [auditRiskLevel, scanRiskLevel_min, auditRiskLevel]

end ContractAudit
