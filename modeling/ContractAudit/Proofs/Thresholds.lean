import Mathlib
import ContractAudit.Audit.Assessment
import ContractAudit.Proofs.FloatOrder
import ContractAudit.Proofs.RiskScores
import ContractAudit.Proofs.ScanReports

/-!
# Scores and their thresholds

A risk score stops at the largest number of 32 bits and a security score at 0, and what is made of
them depends on thresholds.  Stopping does not hide which ones are met.  Nor do the two scores of
an audit, which weigh severities in their own ways, contradict each other.

* `securityScore_lt_iff`, `le_securityScore_iff`: a security score against a threshold.
* `Severity.five_mul_auditWeight_le`: three points of risk cost at least five of security.
* `Deployment.decide_eq_risky_iff` and its like: when each advice is given.

The main statements are `clamped_scores` and `agreeing_scores`.
-/

namespace ContractAudit

/-! ## security scores -/

section
variable {l : List Severity} {k : Nat}

theorem securityScore_lt_iff (hk : k ≤ 100) :
    (securityScore l : Float) < Float.ofNat k ↔ 100 < k + lostPoints (.ofList l) := by
  have hlost := lostPoints_le (.ofList l)
  rw [securityScore_float, FloatOrder.ofNat_lt_ofNat_iff (Nat.sub_le _ _) hk]
  omega

theorem le_securityScore_iff (hk : k ≤ 100) :
    Float.ofNat k ≤ (securityScore l : Float) ↔ k + lostPoints (.ofList l) ≤ 100 := by
  have hlost := lostPoints_le (.ofList l)
  rw [securityScore_float, FloatOrder.ofNat_le_ofNat_iff hk (Nat.sub_le _ _)]
  omega

theorem securityScore_le_iff (hk : k ≤ 100) :
    (securityScore l : Float) ≤ Float.ofNat k ↔ 100 ≤ k + lostPoints (.ofList l) := by
  have hlost := lostPoints_le (.ofList l)
  rw [securityScore_float, FloatOrder.ofNat_le_ofNat_iff (Nat.sub_le _ _) hk]
  omega

theorem not_le_securityScore_iff (hk : k ≤ 100) :
    ¬ Float.ofNat k ≤ (securityScore l : Float) ↔ (securityScore l : Float) < Float.ofNat k := by
  rw [le_securityScore_iff hk, securityScore_lt_iff hk, Nat.not_le]

theorem Severity.penalty_eq_zero_iff {v : Severity} : v.penalty = 0 ↔ v = .info := by
  cases v <;> decide

theorem lostPoints_eq_zero_iff : lostPoints (.ofList l) = 0 ↔ ∀ v ∈ l, v = .info := by
  have hsum : lostPoints (.ofList l) = 0 ↔ (l.map Severity.penalty).sum = 0 := by
    rw [lostPoints_ofList]
    omega
  rw [hsum, List.sum_eq_zero_iff_forall_eq_nat, List.forall_mem_map]
  simp only [Severity.penalty_eq_zero_iff]

theorem securityScore_eq_hundred_iff :
    (securityScore l : Float) = Float.ofNat 100 ↔ ∀ v ∈ l, v = .info := by
  rw [← lostPoints_eq_zero_iff]
  constructor
  · intro h
    have hle : Float.ofNat 100 ≤ (securityScore l : Float) := by
      rw [h]
      exact FloatOrder.ofNat_le_ofNat (Nat.le_refl 100) (Nat.le_refl 100)
    have hnone := (le_securityScore_iff (Nat.le_refl 100)).1 hle
    omega
  · intro h
    rw [securityScore_float, h]

end

/-- **What stops is only cut off.**  A risk score is the exact weighted sum of the counts, but at
most the largest number of 32 bits, and its level is that of the exact sum, where that of an audit
is at least LOW.  A security score is 100 less the exact sum of the penalties, but at least 0; it is
100 just where there are no findings or only INFO ones. -/
theorem clamped_scores :
    (∀ n : SeverityCounts,
      let scanSum := 10 * n.critical + 7 * n.high + 4 * n.medium + n.low
      let auditSum := 10 * n.critical + 7 * n.high + 3 * n.medium + n.low
      (scanRiskScore n = min scanSum (2 ^ 32 - 1) ∧ auditRiskScore n = min auditSum (2 ^ 32 - 1)) ∧
      scanRiskLevel (scanRiskScore n) =
        (if 50 ≤ scanSum then .critical else if 25 ≤ scanSum then .high
          else if 10 ≤ scanSum then .medium else if 1 ≤ scanSum then .low else .info) ∧
      auditRiskLevel (auditRiskScore n) =
        (if 50 ≤ auditSum then .critical else if 25 ≤ auditSum then .high
          else if 10 ≤ auditSum then .medium else .low)) ∧
    ∀ fs : List Finding,
      let count := fun v : Severity => fs.countP (·.severity == v)
      let score : Float := securityScore (fs.map (·.severity))
      score = Float.ofNat (100 - min 100
        (25 * count .critical + 15 * count .high + 5 * count .medium + 2 * count .low)) ∧
      (0.0 ≤ score ∧ score ≤ 100.0) ∧
      (score = 100.0 ↔ ∀ f ∈ fs, f.severity = .info) := by
  refine ⟨fun n => ?_, fun fs => ?_⟩
  · intro scanSum auditSum
    have hscan : scanRiskScore n = min scanSum maxScore := scanRiskScore_eq n
    have haudit : auditRiskScore n = min auditSum maxScore := auditRiskScore_eq n
    refine ⟨⟨hscan, haudit⟩, ?_, ?_⟩
    · rw [hscan, scanRiskLevel_min, scanRiskLevel]
    · rw [haudit, auditRiskLevel_min, auditRiskLevel_eq]
  · intro count score
    have hcounts : lostPoints (.ofList (fs.map (·.severity))) = min 100
        (25 * count .critical + 15 * count .high + 5 * count .medium + 2 * count .low) := by
      simp only [count, ← SeverityCounts.get_ofFindings]
      rfl
    have hlost := lostPoints_le (.ofList (fs.map (·.severity)))
    refine ⟨?_, ⟨?_, ?_⟩, ?_⟩
    · rw [← hcounts]
      exact securityScore_float _
    · exact (le_securityScore_iff (Nat.zero_le 100)).2 (by omega)
    · exact (securityScore_le_iff (Nat.le_refl 100)).2 (by omega)
    · exact securityScore_eq_hundred_iff.trans List.forall_mem_map

/-! ## two scores of one audit -/

namespace Severity

/-- three points of risk cost at least five of security, and those of a MEDIUM finding no more -/
theorem five_mul_auditWeight_le (v : Severity) : 5 * v.auditWeight ≤ 3 * v.penalty := by
  cases v <;> decide

theorem five_mul_sum_auditWeight_le (l : List Severity) :
    5 * (l.map auditWeight).sum ≤ 3 * (l.map penalty).sum := by
  induction l with
  | nil => exact Nat.le_refl _
  | cons v l ih =>
    have hv := five_mul_auditWeight_le v
    rw [List.map_cons, List.map_cons, List.sum_cons, List.sum_cons]
    omega

end Severity

theorem isSevere_auditRiskLevel_iff {score : Nat} : (auditRiskLevel score).isSevere ↔ 25 ≤ score := by
  rw [auditRiskLevel_eq]
  split_ifs <;> simp [RiskLevel.isSevere] <;> omega

/-- 25 points of risk cost at least 42 points of security -/
theorem securityScore_of_isSevere {fs : List Finding}
    (h : (auditRiskLevel (auditRiskScore (.ofFindings fs))).isSevere) :
    (securityScore (fs.map (·.severity)) : Float) ≤ 58.0 := by
  have hrisk : 25 ≤ ((fs.map (·.severity)).map Severity.auditWeight).sum := by
    have hscore := isSevere_auditRiskLevel_iff.1 h
    rw [auditRiskScore, SeverityCounts.ofFindings, weightedSum_ofList] at hscore
    exact hscore.trans (Nat.min_le_left _ _)
  have hpenalty := Severity.five_mul_sum_auditWeight_le (fs.map (·.severity))
  refine (securityScore_le_iff (k := 58) (by decide)).2 ?_
  rw [lostPoints_ofList]
  omega

/-! ## advice -/

namespace Deployment

variable {level : RiskLevel} {m : AuditMetrics Float}

theorem decide_eq_notRecommended_iff : decide level m = .notRecommended ↔ level.isSevere := by
  unfold decide
  split_ifs <;> simp_all

theorem decide_eq_risky_iff :
    decide level m = .risky ↔ ¬ level.isSevere ∧ m.securityScore < 70.0 := by
  unfold decide
  split_ifs <;> simp_all

theorem decide_permits_iff :
    decide level m = .proceedWithCaution ∨ decide level m = .acceptable ↔
      ¬ level.isSevere ∧ ¬ m.securityScore < 70.0 := by
  unfold decide
  split_ifs <;> simp_all

end Deployment

theorem mem_adviseIf {condition : Bool} {text text' : String} :
    text' ∈ adviseIf condition text ↔ condition ∧ text' = text := by
  cases condition <;> simp [adviseIf]

/-- who loses more than 20 points is told so and gets no praise -/
theorem auditRecommendations_of_securityScore_lt {fs : List Finding} {m : AuditMetrics Float}
    (h : m.securityScore < 80.0) :
    "Improve security practices and patterns" ∈ auditRecommendations fs m ∧
    "Good security posture - maintain current practices" ∉ auditRecommendations fs m := by
  unfold auditRecommendations
  extract_lets n advice
  have hmem : "Improve security practices and patterns" ∈ advice := by
    simp [advice, mem_adviseIf, h]
  have hsome : ¬ advice.isEmpty := mt List.isEmpty_iff.1 (List.ne_nil_of_mem hmem)
  rw [if_neg hsome]
  refine ⟨hmem, ?_⟩
  simp [advice, mem_adviseIf]

/-- **The two scores of an audit agree.**  Whatever the findings, a risk that stands in the way of
a deployment leaves at most 58 points of security, so that an audit permits a deployment just where
70 points are left, and calls it risky just where they are not and the risk is not severe.  Where it
does not permit a deployment, it recommends better practices and has no praise. -/
theorem agreeing_scores (fs : List Finding) :
    let level := auditRiskLevel (auditRiskScore (.ofFindings fs))
    let score : Float := securityScore (fs.map (·.severity))
    (level = .critical ∨ level = .high → score ≤ 58.0) ∧
    (∃ gs : List Finding, auditRiskLevel (auditRiskScore (.ofFindings gs)) = .high ∧
      (securityScore (gs.map (·.severity)) : Float) = 58.0) ∧
    ∀ m : AuditMetrics Float, m.securityScore = score →
      let advice := (RiskAssessment.ofFindings fs m).deployment
      let recommended := auditRecommendations fs m
      (advice = some .proceedWithCaution ∨ advice = some .acceptable ↔ 70.0 ≤ score) ∧
      (level = .critical ∨ level = .high → advice = some .notRecommended) ∧
      (advice = some .risky ↔ ¬ 70.0 ≤ score ∧ ¬ (level = .critical ∨ level = .high)) ∧
      (advice = some .notRecommended ∨ advice = some .risky →
        "Improve security practices and patterns" ∈ recommended ∧
        "Good security posture - maintain current practices" ∉ recommended) := by
  intro level score
  have hsevere : level.isSevere ↔ level = .critical ∨ level = .high := by
    cases level <;> decide
  have hbound : level.isSevere → score ≤ 58.0 := securityScore_of_isSevere
  refine ⟨fun h => hbound (hsevere.2 h), ?_, fun m hm => ?_⟩
  · let finding (v : Severity) : Finding := .ofLine ⟨"", "", "", v, "", []⟩ 1 []
    exact ⟨finding .low :: List.replicate 8 (finding .medium), by decide, by decide +kernel⟩
  intro advice recommended
  have hadvice (d : Deployment) : advice = some d ↔ Deployment.decide level m = d :=
    Option.some_inj
  have hbelow : m.securityScore < 70.0 ↔ ¬ 70.0 ≤ score := by
    rw [hm]
    exact (not_le_securityScore_iff (k := 70) (by decide)).symm
  have hblocked (h : level.isSevere) : m.securityScore < 70.0 := by
    rw [hm]
    exact FloatOrder.lt_of_le_of_lt (hbound h)
      (FloatOrder.ofNat_lt_ofNat (a := 58) (b := 70) (by decide) (by decide))
  have himprovable (h : m.securityScore < 70.0) : m.securityScore < 80.0 :=
    FloatOrder.lt_of_lt_of_le h
      (FloatOrder.ofNat_le_ofNat (a := 70) (b := 80) (by decide) (by decide))
  refine ⟨?_, fun h => ?_, ?_, ?_⟩
  · rw [hadvice, hadvice, Deployment.decide_permits_iff, hbelow, not_not]
    exact and_iff_right_of_imp fun h hlevel => hbelow.1 (hblocked hlevel) h
  · exact (hadvice _).2 (Deployment.decide_eq_notRecommended_iff.2 (hsevere.2 h))
  · rw [hadvice, Deployment.decide_eq_risky_iff, hbelow, hsevere, and_comm]
  · rw [hadvice, hadvice, Deployment.decide_eq_notRecommended_iff, Deployment.decide_eq_risky_iff]
    rintro (h | ⟨-, h⟩)
    · exact auditRecommendations_of_securityScore_lt (himprovable (hblocked h))
    · exact auditRecommendations_of_securityScore_lt (himprovable h)

/-- eight MEDIUM findings and a LOW one, which is the least that makes a risk HIGH -/
theorem agreeing_scores_of_medium_findings :
    let finding (v : Severity) := Finding.ofLine ⟨"", "", "", v, "", []⟩ 1 []
    let fs := finding .low :: List.replicate 8 (finding .medium)
    let m : AuditMetrics Float := ⟨9, 10.0, 58.0, 95.0, 80.0, 0.0⟩
    m.securityScore = securityScore (fs.map (·.severity)) ∧
    auditRiskLevel (auditRiskScore (.ofFindings fs)) = .high ∧
    (RiskAssessment.ofFindings fs m).deployment = some .notRecommended ∧
    "Improve security practices and patterns" ∈ auditRecommendations fs m ∧
    "Good security posture - maintain current practices" ∉ auditRecommendations fs m := by
  intro finding fs m
  have hm : m.securityScore = securityScore (fs.map (·.severity)) := by decide +kernel
  have hlevel : auditRiskLevel (auditRiskScore (.ofFindings fs)) = .high := by decide
  obtain ⟨-, hblocked, -, himprove⟩ := (agreeing_scores fs).2.2 m hm
  have hadvice := hblocked (.inr hlevel)
  exact ⟨hm, hlevel, hadvice, himprove (.inl hadvice)⟩

end ContractAudit
