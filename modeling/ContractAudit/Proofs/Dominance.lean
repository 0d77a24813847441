import Mathlib
import ContractAudit.Audit.Assessment
import ContractAudit.Proofs.FloatOrder
import ContractAudit.Proofs.RiskScores
import ContractAudit.Rule.Catalogue
import ContractAudit.Scan.Report

/-!
# More findings and more severe ones

Where there are more findings, or more severe ones, nothing looks better: scores of risk rise,
levels get worse, the security score falls, and the advice whether to deploy gets stricter.  Where
the findings are only added to, no recommendation gets lost.

* `Dominates fs' fs`: the findings `fs` can be paired with different findings among `fs'` that are
  at least as severe.
* `Dominates.of_sublist`: findings are dominated where they are only added to.
* `Dominates.sum_le`: sums of weights that rise with the severity.
* `RiskLevel.IsAtLeast`: one level is at least as severe as another.
* `Deployment.IsAsStrictAs`: one advice is at least as restrictive as another.
* `adviseIf_sublist`: recommendations on conditions of which one implies the other.

The main statement is `dominating_findings`.
-/

namespace ContractAudit

/-- each finding of `fs` can be paired with a different one of `fs'` that is at least as severe -/
def Dominates (fs' fs : List Finding) : Prop :=
  ∃ pair : Fin fs.length → Fin fs'.length, Function.Injective pair ∧
    ∀ i, fs[i].severity ≤ fs'[pair i].severity

theorem Dominates.of_sublist {fs fs' : List Finding} (h : fs.Sublist fs') : Dominates fs' fs := by
  obtain ⟨pair, hpair⟩ := List.sublist_iff_exists_fin_orderEmbedding_get_eq.1 h
  refine ⟨pair, pair.injective, fun i => ?_⟩
  have hsame : fs[i] = fs'[pair i] := hpair i
  exact Nat.le_of_eq (congrArg (·.severity.rank) hsame)

/-! ## scores -/

namespace Severity

/-- more severe findings weigh at least as much -/
def IsMonotone (weight : Severity → Nat) : Prop := ∀ v v', v ≤ v' → weight v ≤ weight v'

theorem isMonotone_scanWeight : IsMonotone scanWeight := by
  intro v v'
  cases v <;> cases v' <;> decide

theorem isMonotone_auditWeight : IsMonotone auditWeight := by
  intro v v'
  cases v <;> cases v' <;> decide

theorem isMonotone_penalty : IsMonotone penalty := by
  intro v v'
  cases v <;> cases v' <;> decide

end Severity

section
variable {fs fs' : List Finding}

theorem Dominates.sum_le (h : Dominates fs' fs) {weight : Severity → Nat}
    (hweight : Severity.IsMonotone weight) :
    ((fs.map (·.severity)).map weight).sum ≤ ((fs'.map (·.severity)).map weight).sum := by
  obtain ⟨pair, hpair, hsevere⟩ := h
  rw [List.map_map, List.map_map, ← Fin.sum_univ_fun_getElem, ← Fin.sum_univ_fun_getElem]
  calc ∑ i : Fin fs.length, weight fs[i].severity
      ≤ ∑ i : Fin fs.length, weight fs'[pair i].severity :=
        Finset.sum_le_sum fun i _ => hweight _ _ (hsevere i)
    _ = ∑ j ∈ Finset.univ.image pair, weight fs'[j].severity := by
        rw [Finset.sum_image fun i _ j _ hij => hpair hij]
    _ ≤ ∑ j : Fin fs'.length, weight fs'[j].severity :=
        Finset.sum_le_sum_of_subset (Finset.subset_univ _)

theorem Dominates.weightedSum_le (h : Dominates fs' fs) {weight : Severity → Nat}
    (hweight : Severity.IsMonotone weight) :
    weightedSum weight (.ofFindings fs) ≤ weightedSum weight (.ofFindings fs') := by
  rw [SeverityCounts.ofFindings, SeverityCounts.ofFindings, weightedSum_ofList,
    weightedSum_ofList]
  exact min_le_min_right _ (h.sum_le hweight)

theorem Dominates.securityScore_le (h : Dominates fs' fs) :
    (securityScore (fs'.map (·.severity)) : Float) ≤ securityScore (fs.map (·.severity)) := by
  have hpenalty := h.sum_le Severity.isMonotone_penalty
  rw [securityScore_float, securityScore_float, lostPoints_ofList, lostPoints_ofList]
  exact FloatOrder.ofNat_le_ofNat (by omega) (by omega)

end

/-! ## levels -/

namespace RiskLevel

/-- the severity that gives a level its name; an unknown level has none -/
def severity? : RiskLevel → Option Severity
  | critical => some .critical
  | high => some .high
  | medium => some .medium
  | low => some .low
  | info => some .info
  | unknown => none

/-- both levels are known, and the first one is at least as severe -/
def IsAtLeast (l' l : RiskLevel) : Prop := ∃ v' ∈ l'.severity?, ∃ v ∈ l.severity?, v ≤ v'

theorem isSevere_iff {l : RiskLevel} : l.isSevere ↔ ∃ v ∈ l.severity?, Severity.high ≤ v := by
  cases l <;> decide

theorem IsAtLeast.isSevere {l l' : RiskLevel} (h : l'.IsAtLeast l) (hl : l.isSevere) :
    l'.isSevere := by
  obtain ⟨v', hv', v, hv, hle⟩ := h
  obtain ⟨w, hw, hhigh⟩ := isSevere_iff.1 hl
  obtain rfl := Option.mem_unique hv hw
  exact isSevere_iff.2 ⟨v', hv', Nat.le_trans hhigh hle⟩

end RiskLevel

theorem scanRiskLevel_isAtLeast {score score' : Nat} (h : score ≤ score') :
    (scanRiskLevel score').IsAtLeast (scanRiskLevel score) := by
  unfold scanRiskLevel
  split_ifs <;> first | exact ⟨_, rfl, _, rfl, by decide⟩ | omega

theorem auditRiskLevel_isAtLeast {score score' : Nat} (h : score ≤ score') :
    (auditRiskLevel score').IsAtLeast (auditRiskLevel score) := by
  rw [auditRiskLevel_eq, auditRiskLevel_eq]
  split_ifs <;> first | exact ⟨_, rfl, _, rfl, by decide⟩ | omega

/-! ## advice -/

namespace Deployment

/-- the first advice is at least as restrictive as the second one -/
def IsAsStrictAs (d' d : Deployment) : Prop := all.idxOf d' ≤ all.idxOf d

instance (d' d : Deployment) : Decidable (d'.IsAsStrictAs d) :=
  inferInstanceAs (Decidable (_ ≤ _))

theorem decide_isAsStrictAs {level level' : RiskLevel} {m m' : AuditMetrics Float}
    (hlevel : level'.IsAtLeast level) (hsecurity : m'.securityScore ≤ m.securityScore)
    (hcomplexity : m.complexityScore ≤ m'.complexityScore) :
    (decide level' m').IsAsStrictAs (decide level m) := by
  have hsevere : level.isSevere → level'.isSevere := hlevel.isSevere
  have hrisky : m.securityScore < 70.0 → m'.securityScore < 70.0 :=
    FloatOrder.lt_of_le_of_lt hsecurity
  have hcomplex : m.complexityScore > 80.0 → m'.complexityScore > 80.0 := fun h =>
    FloatOrder.lt_of_lt_of_le h hcomplexity
  unfold decide
  by_cases hsevere' : level'.isSevere
  · rw [if_pos hsevere']
    exact Nat.zero_le _
  rw [if_neg hsevere', if_neg (mt hsevere hsevere')]
  by_cases hrisky' : m'.securityScore < 70.0
  · rw [if_pos hrisky']
    split_ifs <;> decide
  rw [if_neg hrisky', if_neg (mt hrisky hrisky')]
  by_cases hcomplex' : m'.complexityScore > 80.0
  · rw [if_pos hcomplex']
    split_ifs <;> decide
  rw [if_neg hcomplex', if_neg (mt hcomplex hcomplex')]
  exact Nat.le_refl _

end Deployment

/-! ## recommendations -/

theorem adviseIf_sublist {p q : Prop} [Decidable p] [Decidable q] (h : p → q) (text : String) :
    (adviseIf p text).Sublist (adviseIf q text) := by
  unfold adviseIf
  by_cases hp : p
  · rw [decide_eq_true hp, decide_eq_true (h hp)]
  · rw [decide_eq_false hp]
    exact List.nil_sublist _

/-- advice that stands in for none does not count -/
theorem filter_ne_sublist {advice advice' : List String} (good : String)
    (h : advice.Sublist advice') :
    ((if advice.isEmpty then [good] else advice).filter (· ≠ good)).Sublist
      (if advice'.isEmpty then [good] else advice') := by
  by_cases hempty : advice.isEmpty
  · rw [if_pos hempty]
    simp
  · have hempty' : ¬ advice'.isEmpty := fun hnil => by
      rw [List.isEmpty_iff.1 hnil, List.sublist_nil] at h
      exact hempty (List.isEmpty_iff.2 h)
    rw [if_neg hempty, if_neg hempty']
    exact List.filter_sublist.trans h

section
variable {fs fs' : List Finding}

theorem get_ofFindings_le (h : fs.Sublist fs') (v : Severity) :
    (SeverityCounts.ofFindings fs).get v ≤ (SeverityCounts.ofFindings fs').get v := by
  rw [SeverityCounts.ofFindings, SeverityCounts.ofFindings, SeverityCounts.get_ofList,
    SeverityCounts.get_ofList]
  exact (h.map _).count_le v

theorem scanRecommendations_sublist (h : fs.Sublist fs') :
    ((scanRecommendations (.ofFindings fs)).filter
        (· ≠ "No significant security issues found - maintain secure coding practices")).Sublist
      (scanRecommendations (.ofFindings fs')) := by
  have hcritical := get_ofFindings_le h .critical
  have hhigh := get_ofFindings_le h .high
  have hmedium := get_ofFindings_le h .medium
  refine filter_ne_sublist _ ?_
  refine .append (.append (.append ?_ ?_) ?_) ?_
  · exact adviseIf_sublist (fun h0 => h0.trans_le hcritical) _
  · exact adviseIf_sublist (fun h0 => h0.trans_le hhigh) _
  · exact adviseIf_sublist (fun h0 => h0.trans_le hmedium) _
  · exact adviseIf_sublist (fun h0 => h0.trans_le (Nat.add_le_add hcritical hhigh)) _

theorem auditRecommendations_sublist (h : fs.Sublist fs') {m m' : AuditMetrics Float}
    (hsecurity : m'.securityScore ≤ m.securityScore)
    (hcomplexity : m.complexityScore ≤ m'.complexityScore)
    (hgas : m'.gasEfficiencyScore ≤ m.gasEfficiencyScore)
    (hquality : m'.codeQualityScore ≤ m.codeQualityScore) :
    ((auditRecommendations fs m).filter
        (· ≠ "Good security posture - maintain current practices")).Sublist
      (auditRecommendations fs' m') := by
  have hcritical := get_ofFindings_le h .critical
  have hhigh := get_ofFindings_le h .high
  refine filter_ne_sublist _ ?_
  refine .append (.append (.append (.append (.append (.append ?_ ?_) ?_) ?_) ?_) ?_) ?_
  · exact adviseIf_sublist (fun h0 => h0.trans_le hcritical) _
  · exact adviseIf_sublist (fun h0 => h0.trans_le hhigh) _
  · exact adviseIf_sublist (fun h0 => h0.trans_le (Nat.add_le_add hcritical hhigh)) _
  · exact adviseIf_sublist (FloatOrder.lt_of_le_of_lt hsecurity) _
  · exact adviseIf_sublist (fun h0 => FloatOrder.lt_of_lt_of_le h0 hcomplexity) _
  · exact adviseIf_sublist (FloatOrder.lt_of_le_of_lt hgas) _
  · exact adviseIf_sublist (FloatOrder.lt_of_le_of_lt hquality) _

end

/-- **More findings and more severe ones.**  Where findings are dominated, risk scores are at most
as high, risk levels at most as severe, and the security score is at least as high; and the advice
whether to deploy is at most as strict, if the metrics go with these findings and the complexity is
at most as high.  Where findings are only added and the other scores are at most as high, every
recommendation but the one for want of others is given again, in the same order. -/
theorem dominating_findings {fs fs' : List Finding} (h : Dominates fs' fs) :
    (scanRiskScore (.ofFindings fs) ≤ scanRiskScore (.ofFindings fs') ∧
      auditRiskScore (.ofFindings fs) ≤ auditRiskScore (.ofFindings fs')) ∧
    ((scanRiskLevel (scanRiskScore (.ofFindings fs'))).IsAtLeast
        (scanRiskLevel (scanRiskScore (.ofFindings fs))) ∧
      (auditRiskLevel (auditRiskScore (.ofFindings fs'))).IsAtLeast
        (auditRiskLevel (auditRiskScore (.ofFindings fs)))) ∧
    (securityScore (fs'.map (·.severity)) : Float) ≤ securityScore (fs.map (·.severity)) ∧
    (∀ m m' : AuditMetrics Float, m.securityScore = securityScore (fs.map (·.severity)) →
      m'.securityScore = securityScore (fs'.map (·.severity)) →
      m.complexityScore ≤ m'.complexityScore →
      (∃ d d', (RiskAssessment.ofFindings fs m).deployment = some d ∧
        (RiskAssessment.ofFindings fs' m').deployment = some d' ∧ d'.IsAsStrictAs d) ∧
      (fs.Sublist fs' → m'.gasEfficiencyScore ≤ m.gasEfficiencyScore →
        m'.codeQualityScore ≤ m.codeQualityScore →
        ((auditRecommendations fs m).filter
            (· ≠ "Good security posture - maintain current practices")).Sublist
          (auditRecommendations fs' m'))) ∧
    (fs.Sublist fs' →
      ((scanRecommendations (.ofFindings fs)).filter
          (· ≠ "No significant security issues found - maintain secure coding practices")).Sublist
        (scanRecommendations (.ofFindings fs'))) := by
  have hscan := h.weightedSum_le Severity.isMonotone_scanWeight
  have haudit := h.weightedSum_le Severity.isMonotone_auditWeight
  have hlevel := auditRiskLevel_isAtLeast haudit
  refine ⟨⟨hscan, haudit⟩, ⟨scanRiskLevel_isAtLeast hscan, hlevel⟩, h.securityScore_le,
    fun m m' hm hm' hcomplexity => ?_, scanRecommendations_sublist⟩
  have hsecurity : m'.securityScore ≤ m.securityScore := by
    rw [hm, hm']
    exact h.securityScore_le
  exact ⟨⟨_, _, rfl, rfl, Deployment.decide_isAsStrictAs hlevel hsecurity hcomplexity⟩,
    fun hsub hgas hquality =>
      auditRecommendations_sublist hsub hsecurity hcomplexity hgas hquality⟩

/-- a function without access control comes to a time stamp -/
theorem dominating_findings_added :
    let stamp := Finding.ofLine Rule.timestampDependence.about 2 "now".toList
    let added := Finding.ofLine Rule.missingAccessControl.about 1 "function f() public".toList
    let m : AuditMetrics Float := ⟨1, 10.0, securityScore [.medium], 95.0, 80.0, 0.0⟩
    let m' : AuditMetrics Float := ⟨2, 75.0, securityScore [.critical, .medium], 55.0, 80.0, 0.0⟩
    (Dominates [added, stamp] [stamp] ∧ [stamp].Sublist [added, stamp] ∧
      m.complexityScore ≤ m'.complexityScore ∧ m'.gasEfficiencyScore ≤ m.gasEfficiencyScore ∧
      m'.codeQualityScore ≤ m.codeQualityScore) ∧
    auditRiskScore (.ofFindings [stamp]) ≤ auditRiskScore (.ofFindings [added, stamp]) ∧
    ((auditRecommendations [stamp] m).filter
        (· ≠ "Good security posture - maintain current practices")).Sublist
      (auditRecommendations [added, stamp] m') ∧
    auditRecommendations [added, stamp] m' =
      ["Address all CRITICAL vulnerabilities before deployment",
       "Improve security practices and patterns",
       "Reduce code complexity to improve maintainability",
       "Optimize gas usage for better cost efficiency"] := by
  intro stamp added m m'
  have hsub : [stamp].Sublist [added, stamp] := List.sublist_cons_self _ _
  have hcomplexity : m.complexityScore ≤ m'.complexityScore := by decide +kernel
  have hgas : m'.gasEfficiencyScore ≤ m.gasEfficiencyScore := by decide +kernel
  have hquality : m'.codeQualityScore ≤ m.codeQualityScore := by decide +kernel
  have hmain := dominating_findings (Dominates.of_sublist hsub)
  refine ⟨⟨.of_sublist hsub, hsub, hcomplexity, hgas, hquality⟩, hmain.1.2,
    (hmain.2.2.2.1 m m' rfl rfl hcomplexity).2 hsub hgas hquality, by decide +kernel⟩

end ContractAudit
