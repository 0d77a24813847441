import ContractAudit.Proofs.Fields
import ContractAudit.Proofs.FloatRange
import ContractAudit.Proofs.Timestamps
import ContractAudit.Report.Persisted

/-!
# Records as they are kept

Of each kind of record there are three statements: what is written is plain, what is written is
read back exactly if the record can be kept, and only such records are read.

* `SeverityCounts.IsStorable`, `Finding.IsStorable`, …: the counts of a record have 64 bits, its
  instants have a date, and the keys of its maps increase.
* `Finding.ofJson?_eq_some_iff`, …: a record is read if all its fields are.
* `Finding.ofJson?_toJson_iff`, …: a written record is read back if it can be kept and its
  floating-point numbers are read back.
* `Finding.of_ofJson?`, …: only records that can be kept are read.
-/

namespace ContractAudit

open Json

/-! ## single values -/

theorem Severity.ofName?_name (s : Severity) : ofName? s.name = some s := by
  cases s <;> decide

theorem RiskLevel.ofName?_name (l : RiskLevel) : ofName? l.name = some l := by
  cases l <;> decide

theorem AuditLevel.ofName?_name (l : AuditLevel) : ofName? l.name = some l := by
  cases l <;> decide

theorem AuditStatus.ofName?_name (s : AuditStatus) : ofName? s.name = some s := by
  cases s <;> decide

theorem Deployment.ofMessage?_message (d : Deployment) : ofMessage? d.message = some d := by
  cases d <;> decide

namespace Json

theorem text?_text (s : String) : (text s).text? = some s := rfl

theorem variant?_text (s : String) : (text s).variant? = some s := rfl

theorem flag?_bool (b : Bool) : (bool b).flag? = some b := rfl

theorem nat?_ofNat_iff {hi n : Nat} : (ofNat n).nat? hi = some n ↔ n ≤ hi := by
  rw [nat?_ofNat, Option.ite_none_right_eq_some]
  exact and_iff_left rfl

theorem int?_ofInt_iff {lo hi n : Int} : (ofInt n).int? lo hi = some n ↔ lo ≤ n ∧ n ≤ hi := by
  rw [int?_ofInt, Option.ite_none_right_eq_some]
  exact and_iff_left rfl

theorem count?_ofNat_iff {n : Nat} : (ofNat n).count? = some n ↔ n ≤ maxCount := nat?_ofNat_iff

theorem list?_texts (l : List String) : (texts l).list? text? = some l :=
  list?_map_eq_some_iff.2 fun _ _ => rfl

theorem isPlain_texts (l : List String) : (texts l).IsPlain := isPlain_array_map isPlain_text

theorem severity?_name (s : Severity) : (text s.name).severity? = some s := s.ofName?_name

theorem instant?_instant_iff {t : Instant} : (instant t).instant? = some t ↔ t.IsValid := by
  rw [instant, instant?, text?_text, Option.bind_some]
  exact ⟨Instant.isValid_of_ofText?, Instant.ofText?_rfc3339⟩

theorem isValid_of_instant? {x : Json} {t : Instant} (h : x.instant? = some t) : t.IsValid := by
  obtain ⟨s, -, hs⟩ := Option.bind_eq_some_iff.1 h
  exact Instant.isValid_of_ofText? hs

end Json

/-! ## counts of severities -/

namespace SeverityCounts

/-- every count has 64 bits -/
def IsStorable (n : SeverityCounts) : Prop := ∀ s, n.get s ≤ maxCount

theorem isStorable_iff {n : SeverityCounts} : n.IsStorable ↔ n.critical ≤ maxCount ∧
    n.high ≤ maxCount ∧ n.medium ≤ maxCount ∧ n.low ≤ maxCount ∧ n.info ≤ maxCount := by
  constructor
  · exact fun h => ⟨h .critical, h .high, h .medium, h .low, h .info⟩
  · rintro ⟨hcritical, hhigh, hmedium, hlow, hinfo⟩ s
    cases s <;> assumption

theorem ofJson?_eq_some_iff {x : Json} {n : SeverityCounts} : ofJson? x = some n ↔
    ∃ get, x.fields? (Severity.descending.map Severity.name) = some get ∧
      required get "CRITICAL" count? = some n.critical ∧
      required get "HIGH" count? = some n.high ∧
      required get "MEDIUM" count? = some n.medium ∧
      required get "LOW" count? = some n.low ∧
      required get "INFO" count? = some n.info := by
  rw [ofJson?]
  simp only [↓bind_eq_some_iff, Option.pure_def, Option.some_inj]
  constructor
  · rintro ⟨get, hget, _, hcritical, _, hhigh, _, hmedium, _, hlow, _, hinfo, rfl⟩
    exact ⟨get, hget, hcritical, hhigh, hmedium, hlow, hinfo⟩
  · rintro ⟨get, hget, hcritical, hhigh, hmedium, hlow, hinfo⟩
    exact ⟨get, hget, _, hcritical, _, hhigh, _, hmedium, _, hlow, _, hinfo, rfl⟩

theorem isPlain_toJson (n : SeverityCounts) : n.toJson.IsPlain := by
  refine isPlain_record.2 fun m hm => ?_
  obtain ⟨s, -, rfl⟩ := List.mem_map.1 hm
  exact isPlain_ofNat _

theorem ofJson?_toJson_iff {n : SeverityCounts} : ofJson? n.toJson = some n ↔ n.IsStorable := by
  rw [ofJson?_eq_some_iff, isStorable_iff, toJson, exists_fields?_record_iff (by rfl) (by decide)]
  simp only [Severity.descending, Severity.name, get, List.map_cons, List.map_nil,
    required, List.lookup_cons_self, List.lookup_cons, String.reduceBEq, Option.bind_some,
    count?_ofNat_iff]

theorem of_ofJson? {x : Json} {n : SeverityCounts} (h : ofJson? x = some n) : n.IsStorable := by
  obtain ⟨get, -, hcritical, hhigh, hmedium, hlow, hinfo⟩ := ofJson?_eq_some_iff.1 h
  have hle {name : String} {k : Nat} (h : required get name count? = some k) : k ≤ maxCount := by
    obtain ⟨y, hy⟩ := exists_of_required h
    exact le_of_nat? hy
  exact isStorable_iff.2 ⟨hle hcritical, hle hhigh, hle hmedium, hle hlow, hle hinfo⟩

end SeverityCounts

/-! ## findings -/

namespace Finding

/-- the line number has 64 bits -/
def IsStorable (f : Finding) : Prop := f.lineNumber ≤ maxCount

instance (f : Finding) : Decidable f.IsStorable :=
  inferInstanceAs (Decidable (f.lineNumber ≤ maxCount))

theorem ofJson?_eq_some_iff {x : Json} {f : Finding} : ofJson? x = some f ↔
    ∃ get, x.fields? fieldNames = some get ∧
      required get "rule_id" text? = some f.ruleId ∧
      required get "title" text? = some f.title ∧
      required get "description" text? = some f.description ∧
      required get "severity" severity? = some f.severity ∧
      required get "line_number" count? = some f.lineNumber ∧
      required get "code_snippet" text? = some f.snippet ∧
      required get "recommendation" text? = some f.recommendation ∧
      required get "references" (list? text?) = some f.references ∧
      required get "confidence" float? = some f.confidence ∧
      required get "automated" flag? = some f.automated ∧
      required get "requires_manual_review" flag? = some f.needsReview := by
  rw [ofJson?]
  simp only [↓bind_eq_some_iff, Option.pure_def, Option.some_inj]
  constructor
  · rintro ⟨get, hget, _, h₁, _, h₂, _, h₃, _, h₄, _, h₅, _, h₆, _, h₇, _, h₈, _, h₉, _, h₁₀, _,
      h₁₁, rfl⟩
    exact ⟨get, hget, h₁, h₂, h₃, h₄, h₅, h₆, h₇, h₈, h₉, h₁₀, h₁₁⟩
  · rintro ⟨get, hget, h₁, h₂, h₃, h₄, h₅, h₆, h₇, h₈, h₉, h₁₀, h₁₁⟩
    exact ⟨get, hget, _, h₁, _, h₂, _, h₃, _, h₄, _, h₅, _, h₆, _, h₇, _, h₈, _, h₉, _, h₁₀, _, h₁₁,
      rfl⟩

theorem isPlain_toJson (f : Finding) : f.toJson.IsPlain := by
  refine isPlain_record.2 ?_
  simp only [List.forall_mem_cons, List.not_mem_nil, false_implies, implies_true, and_true,
    isPlain_text, isPlain_ofNat, isPlain_texts, isPlain_ofFloat, isPlain_bool]

theorem ofJson?_toJson_iff {f : Finding} :
    ofJson? f.toJson = some f ↔ f.IsStorable ∧ ReadsBack f.confidence := by
  rw [ofJson?_eq_some_iff, toJson, exists_fields?_record_iff (by rfl) (by decide)]
  simp only [required, List.lookup_cons_self, List.lookup_cons, String.reduceBEq,
    Option.bind_some, text?_text, severity?_name, count?_ofNat_iff, list?_texts, flag?_bool,
    true_and, and_true, IsStorable, ReadsBack]

theorem of_ofJson? {x : Json} {f : Finding} (h : ofJson? x = some f) :
    f.IsStorable ∧ f.confidence.isFinite := by
  obtain ⟨get, -, -, -, -, -, hline, -, -, -, hconfidence, -⟩ := ofJson?_eq_some_iff.1 h
  obtain ⟨y, hy⟩ := exists_of_required hline
  obtain ⟨z, hz⟩ := exists_of_required hconfidence
  exact ⟨le_of_nat? hy, isFinite_of_float? hz⟩

end Finding

namespace Json

theorem isPlain_findings (fs : List Finding) : (findings fs).IsPlain :=
  isPlain_array_map Finding.isPlain_toJson

theorem list?_findings_iff {fs : List Finding} : (findings fs).list? Finding.ofJson? = some fs ↔
    (∀ f ∈ fs, f.IsStorable) ∧ ∀ f ∈ fs, ReadsBack f.confidence := by
  rw [findings, list?_map_eq_some_iff, ← forall₂_and]
  exact forall₂_congr fun f _ => Finding.ofJson?_toJson_iff

theorem of_list?_findings {x : Json} {fs : List Finding}
    (h : x.list? Finding.ofJson? = some fs) :
    (∀ f ∈ fs, f.IsStorable) ∧ ∀ f ∈ fs, f.confidence.isFinite :=
  forall₂_and.1 (forall_of_list? (fun _ _ => Finding.of_ofJson?) h)

end Json

/-! ## reports of scans -/

namespace ScanSummary

/-- every count has 64 bits and the score has 32; the ids of the rules increase -/
def IsStorable (s : ScanSummary) : Prop :=
  s.totalFilesScanned ≤ maxCount ∧ s.totalVulnerabilities ≤ maxCount ∧
    s.severityBreakdown.IsStorable ∧
    (Ordered.Increases s.ruleBreakdown ∧ ∀ x ∈ s.ruleBreakdown, x.2 ≤ maxCount) ∧
    s.riskScore ≤ maxScore

theorem ofJson?_eq_some_iff {x : Json} {s : ScanSummary} : ofJson? x = some s ↔
    ∃ get, x.fields? fieldNames = some get ∧
      required get "total_files_scanned" count? = some s.totalFilesScanned ∧
      required get "total_vulnerabilities" count? = some s.totalVulnerabilities ∧
      required get "severity_breakdown" SeverityCounts.ofJson? = some s.severityBreakdown ∧
      required get "rule_breakdown" (map? count?) = some s.ruleBreakdown ∧
      required get "risk_score" (nat? maxScore) = some s.riskScore ∧
      required get "risk_level" (fun y => y.variant?.bind RiskLevel.ofName?) =
        some s.riskLevel := by
  rw [ofJson?]
  simp only [↓bind_eq_some_iff, Option.pure_def, Option.some_inj]
  constructor
  · rintro ⟨get, hget, _, h₁, _, h₂, _, h₃, _, h₄, _, h₅, _, h₆, rfl⟩
    exact ⟨get, hget, h₁, h₂, h₃, h₄, h₅, h₆⟩
  · rintro ⟨get, hget, h₁, h₂, h₃, h₄, h₅, h₆⟩
    exact ⟨get, hget, _, h₁, _, h₂, _, h₃, _, h₄, _, h₅, _, h₆, rfl⟩

theorem isPlain_toJson (s : ScanSummary) : s.toJson.IsPlain := by
  refine isPlain_record.2 ?_
  simp only [List.forall_mem_cons, List.not_mem_nil, false_implies, implies_true, and_true,
    isPlain_text, isPlain_ofNat, SeverityCounts.isPlain_toJson, isPlain_record_map]

theorem ofJson?_toJson_iff {s : ScanSummary} : ofJson? s.toJson = some s ↔ s.IsStorable := by
  rw [ofJson?_eq_some_iff, toJson, exists_fields?_record_iff (by rfl) (by decide)]
  simp only [required, List.lookup_cons_self, List.lookup_cons, String.reduceBEq,
    Option.bind_some, count?_ofNat_iff, SeverityCounts.ofJson?_toJson_iff,
    map?_record_eq_some_iff, nat?_ofNat_iff, variant?_text, RiskLevel.ofName?_name, and_true,
    IsStorable]

theorem of_ofJson? {x : Json} {s : ScanSummary} (h : ofJson? x = some s) : s.IsStorable := by
  obtain ⟨get, -, hfiles, htotal, hcounts, hrules, hscore, -⟩ := ofJson?_eq_some_iff.1 h
  obtain ⟨_, hfiles⟩ := exists_of_required hfiles
  obtain ⟨_, htotal⟩ := exists_of_required htotal
  obtain ⟨_, hcounts⟩ := exists_of_required hcounts
  obtain ⟨_, hrules⟩ := exists_of_required hrules
  obtain ⟨_, hscore⟩ := exists_of_required hscore
  exact ⟨le_of_nat? hfiles, le_of_nat? htotal, SeverityCounts.of_ofJson? hcounts,
    forall_of_map? (fun _ _ => le_of_nat?) hrules, le_of_nat? hscore⟩

end ScanSummary

namespace ScanReport

/-- the summary and the findings can be kept, and the displayed paths increase -/
def IsStorable (r : ScanReport) : Prop :=
  r.summary.IsStorable ∧ Ordered.Increases r.detailedFindings ∧
    ∀ x ∈ r.detailedFindings, ∀ f ∈ x.2, f.IsStorable

/-- the floating-point numbers of a report -/
def floats (r : ScanReport) : List Float :=
  r.detailedFindings.flatMap fun x => x.2.map (·.confidence)

theorem forall_floats {P : Float → Prop} {r : ScanReport} :
    (∀ x ∈ r.floats, P x) ↔ ∀ x ∈ r.detailedFindings, ∀ f ∈ x.2, P f.confidence := by
  simp only [floats, List.forall_mem_flatMap, List.forall_mem_map]

theorem ofJson?_eq_some_iff {x : Json} {r : ScanReport} : ofJson? x = some r ↔
    ∃ get, x.fields? ["summary", "recommendations", "detailed_findings"] = some get ∧
      required get "summary" ScanSummary.ofJson? = some r.summary ∧
      required get "recommendations" (list? text?) = some r.recommendations ∧
      required get "detailed_findings" (map? (list? Finding.ofJson?)) =
        some r.detailedFindings := by
  rw [ofJson?]
  simp only [↓bind_eq_some_iff, Option.pure_def, Option.some_inj]
  constructor
  · rintro ⟨get, hget, _, h₁, _, h₂, _, h₃, rfl⟩
    exact ⟨get, hget, h₁, h₂, h₃⟩
  · rintro ⟨get, hget, h₁, h₂, h₃⟩
    exact ⟨get, hget, _, h₁, _, h₂, _, h₃, rfl⟩

theorem isPlain_toJson (r : ScanReport) : r.toJson.IsPlain := by
  refine isPlain_record.2 ?_
  simp only [List.forall_mem_cons, List.not_mem_nil, false_implies, implies_true, and_true,
    ScanSummary.isPlain_toJson, isPlain_texts, isPlain_record_map, isPlain_findings]

theorem ofJson?_toJson_iff {r : ScanReport} :
    ofJson? r.toJson = some r ↔ r.IsStorable ∧ ∀ x ∈ r.floats, ReadsBack x := by
  rw [ofJson?_eq_some_iff, toJson, exists_fields?_record_iff (by rfl) (by decide), forall_floats]
  have hlists : (∀ x ∈ r.detailedFindings, list? Finding.ofJson? (findings x.2) = some x.2) ↔
      (∀ x ∈ r.detailedFindings, ∀ f ∈ x.2, f.IsStorable) ∧
        ∀ x ∈ r.detailedFindings, ∀ f ∈ x.2, ReadsBack f.confidence := by
    rw [← forall₂_and]
    exact forall₂_congr fun _ _ => list?_findings_iff
  have hfindings := (map?_record_eq_some_iff (m := r.detailedFindings)).trans
    (and_congr_right fun _ => hlists)
  simp only [required, List.lookup_cons_self, List.lookup_cons, String.reduceBEq,
    Option.bind_some, ScanSummary.ofJson?_toJson_iff, list?_texts, hfindings, true_and,
    IsStorable, and_assoc]

theorem of_ofJson? {x : Json} {r : ScanReport} (h : ofJson? x = some r) :
    r.IsStorable ∧ ∀ x ∈ r.floats, x.isFinite := by
  obtain ⟨get, -, hsummary, -, hfindings⟩ := ofJson?_eq_some_iff.1 h
  obtain ⟨_, hsummary⟩ := exists_of_required hsummary
  obtain ⟨_, hfindings⟩ := exists_of_required hfindings
  obtain ⟨hincreases, hfindings⟩ := forall_of_map? (fun _ _ => of_list?_findings) hfindings
  obtain ⟨hstorable, hfinite⟩ := forall₂_and.1 hfindings
  exact ⟨⟨ScanSummary.of_ofJson? hsummary, hincreases, hstorable⟩, forall_floats.2 hfinite⟩

end ScanReport

/-! ## reports of audits -/

namespace AuditMetrics

/-- the number of lines has 64 bits -/
def IsStorable (m : AuditMetrics Float) : Prop := m.totalLines ≤ maxCount

/-- the floating-point numbers of metrics -/
def floats (m : AuditMetrics Float) : List Float :=
  [m.complexityScore, m.securityScore, m.gasEfficiencyScore, m.codeQualityScore,
   m.documentationScore]

theorem ofJson?_eq_some_iff {x : Json} {m : AuditMetrics Float} : ofJson? x = some m ↔
    ∃ get, x.fields? fieldNames = some get ∧
      required get "total_lines" count? = some m.totalLines ∧
      required get "complexity_score" float? = some m.complexityScore ∧
      required get "security_score" float? = some m.securityScore ∧
      required get "gas_efficiency_score" float? = some m.gasEfficiencyScore ∧
      required get "code_quality_score" float? = some m.codeQualityScore ∧
      required get "documentation_score" float? = some m.documentationScore := by
  rw [ofJson?]
  simp only [↓bind_eq_some_iff, Option.pure_def, Option.some_inj]
  constructor
  · rintro ⟨get, hget, _, h₁, _, h₂, _, h₃, _, h₄, _, h₅, _, h₆, rfl⟩
    exact ⟨get, hget, h₁, h₂, h₃, h₄, h₅, h₆⟩
  · rintro ⟨get, hget, h₁, h₂, h₃, h₄, h₅, h₆⟩
    exact ⟨get, hget, _, h₁, _, h₂, _, h₃, _, h₄, _, h₅, _, h₆, rfl⟩

theorem isPlain_toJson (m : AuditMetrics Float) : m.toJson.IsPlain := by
  refine isPlain_record.2 ?_
  simp only [List.forall_mem_cons, List.not_mem_nil, false_implies, implies_true, and_true,
    isPlain_ofNat, isPlain_ofFloat]

theorem ofJson?_toJson_iff {m : AuditMetrics Float} :
    ofJson? m.toJson = some m ↔ m.IsStorable ∧ ∀ x ∈ m.floats, ReadsBack x := by
  rw [ofJson?_eq_some_iff, toJson, exists_fields?_record_iff (by rfl) (by decide)]
  simp only [required, List.lookup_cons_self, List.lookup_cons, String.reduceBEq,
    Option.bind_some, count?_ofNat_iff, IsStorable, floats, List.forall_mem_cons,
    List.not_mem_nil, false_implies, implies_true, and_true, ReadsBack]

theorem of_ofJson? {x : Json} {m : AuditMetrics Float} (h : ofJson? x = some m) :
    m.IsStorable ∧ ∀ x ∈ m.floats, x.isFinite := by
  obtain ⟨get, -, hlines, h₁, h₂, h₃, h₄, h₅⟩ := ofJson?_eq_some_iff.1 h
  have hfinite {name : String} {y : Float} (h : required get name float? = some y) :
      y.isFinite := by
    obtain ⟨_, hy⟩ := exists_of_required h
    exact isFinite_of_float? hy
  obtain ⟨_, hlines⟩ := exists_of_required hlines
  refine ⟨le_of_nat? hlines, ?_⟩
  simp only [floats, List.forall_mem_cons, List.not_mem_nil, false_implies, implies_true, and_true]
  exact ⟨hfinite h₁, hfinite h₂, hfinite h₃, hfinite h₄, hfinite h₅⟩

end AuditMetrics

namespace RiskAssessment

/-- the score has 64 bits, one of them for its sign, and every count has 64 bits -/
def IsStorable (a : RiskAssessment) : Prop :=
  (minInt64 ≤ a.riskScore ∧ a.riskScore ≤ maxInt64) ∧ a.severityBreakdown.IsStorable

theorem ofJson?_eq_some_iff {x : Json} {a : RiskAssessment} : ofJson? x = some a ↔
    ∃ get, x.fields? fieldNames = some get ∧
      required get "risk_level" (fun y => y.variant?.bind RiskLevel.ofName?) =
        some a.riskLevel ∧
      required get "risk_score" (int? minInt64 maxInt64) = some a.riskScore ∧
      required get "severity_breakdown" SeverityCounts.ofJson? = some a.severityBreakdown ∧
      required get "recommendation" text? = some a.recommendation ∧
      optional get "deployment_recommendation" (fun y => y.text?.bind Deployment.ofMessage?) =
        some a.deployment := by
  rw [ofJson?]
  simp only [↓bind_eq_some_iff, Option.pure_def, Option.some_inj]
  constructor
  · rintro ⟨get, hget, _, h₁, _, h₂, _, h₃, _, h₄, _, h₅, rfl⟩
    exact ⟨get, hget, h₁, h₂, h₃, h₄, h₅⟩
  · rintro ⟨get, hget, h₁, h₂, h₃, h₄, h₅⟩
    exact ⟨get, hget, _, h₁, _, h₂, _, h₃, _, h₄, _, h₅, rfl⟩

theorem isPlain_toJson (a : RiskAssessment) : a.toJson.IsPlain := by
  refine isPlain_record.2 ?_
  simp only [List.forall_mem_cons, List.not_mem_nil, false_implies, implies_true, and_true,
    isPlain_text, isPlain_ofInt, SeverityCounts.isPlain_toJson, isPlain_orNull]

theorem ofJson?_toJson_iff {a : RiskAssessment} : ofJson? a.toJson = some a ↔ a.IsStorable := by
  rw [ofJson?_eq_some_iff, toJson, exists_fields?_record_iff (by rfl) (by decide)]
  rw [optional_orNull_iff (by rfl) rfl]
  simp only [required, List.lookup_cons_self, List.lookup_cons, String.reduceBEq, Option.bind_some,
    text?_text, variant?_text, int?_ofInt_iff, SeverityCounts.ofJson?_toJson_iff,
    RiskLevel.ofName?_name, Deployment.ofMessage?_message, implies_true, true_and, and_true,
    IsStorable]

theorem of_ofJson? {x : Json} {a : RiskAssessment} (h : ofJson? x = some a) : a.IsStorable := by
  obtain ⟨get, -, -, hscore, hcounts, -⟩ := ofJson?_eq_some_iff.1 h
  obtain ⟨_, hscore⟩ := exists_of_required hscore
  obtain ⟨_, hcounts⟩ := exists_of_required hcounts
  exact ⟨bounds_of_int? hscore, SeverityCounts.of_ofJson? hcounts⟩

end RiskAssessment

namespace AuditReport

/-- the instants have a date, and findings, metrics and risk can be kept -/
def IsStorable (r : AuditReport) : Prop :=
  r.startTime.IsValid ∧ (∀ t ∈ r.endTime, t.IsValid) ∧ (∀ t ∈ r.nextAuditDate, t.IsValid) ∧
    (∀ f ∈ r.findings, f.IsStorable) ∧ (∀ m ∈ r.metrics, m.IsStorable) ∧ r.risk.IsStorable

/-- the floating-point numbers of a report -/
def floats (r : AuditReport) : List Float :=
  r.durationMinutes.toList ++ r.findings.map (·.confidence) ++
    r.metrics.toList.flatMap AuditMetrics.floats

theorem forall_floats {P : Float → Prop} {r : AuditReport} : (∀ x ∈ r.floats, P x) ↔
    (∀ x ∈ r.durationMinutes, P x) ∧ (∀ f ∈ r.findings, P f.confidence) ∧
      ∀ m ∈ r.metrics, ∀ x ∈ m.floats, P x := by
  simp only [floats, List.forall_mem_append, List.forall_mem_map, List.forall_mem_flatMap,
    Option.mem_toList, Option.mem_def, and_assoc]

theorem ofJson?_eq_some_iff {x : Json} {r : AuditReport} : ofJson? x = some r ↔
    ∃ get, x.fields? fieldNames = some get ∧
      required get "audit_id" text? = some r.auditId ∧
      required get "project_name" text? = some r.projectName ∧
      required get "audit_level" (fun y => y.variant?.bind AuditLevel.ofName?) = some r.level ∧
      required get "status" (fun y => y.variant?.bind AuditStatus.ofName?) = some r.status ∧
      required get "start_time" instant? = some r.startTime ∧
      optional get "end_time" instant? = some r.endTime ∧
      optional get "duration_minutes" float? = some r.durationMinutes ∧
      required get "findings" (list? Finding.ofJson?) = some r.findings ∧
      optional get "metrics" AuditMetrics.ofJson? = some r.metrics ∧
      required get "recommendations" (list? text?) = some r.recommendations ∧
      required get "risk_assessment" RiskAssessment.ofJson? = some r.risk ∧
      optional get "auditor_notes" text? = some r.auditorNotes ∧
      optional get "next_audit_date" instant? = some r.nextAuditDate := by
  rw [ofJson?]
  simp only [↓bind_eq_some_iff, Option.pure_def, Option.some_inj]
  constructor
  · rintro ⟨get, hget, _, h₁, _, h₂, _, h₃, _, h₄, _, h₅, _, h₆, _, h₇, _, h₈, _, h₉, _, h₁₀, _,
      h₁₁, _, h₁₂, _, h₁₃, rfl⟩
    exact ⟨get, hget, h₁, h₂, h₃, h₄, h₅, h₆, h₇, h₈, h₉, h₁₀, h₁₁, h₁₂, h₁₃⟩
  · rintro ⟨get, hget, h₁, h₂, h₃, h₄, h₅, h₆, h₇, h₈, h₉, h₁₀, h₁₁, h₁₂, h₁₃⟩
    exact ⟨get, hget, _, h₁, _, h₂, _, h₃, _, h₄, _, h₅, _, h₆, _, h₇, _, h₈, _, h₉, _, h₁₀, _, h₁₁,
      _, h₁₂, _, h₁₃, rfl⟩

theorem isPlain_toJson (r : AuditReport) : r.toJson.IsPlain := by
  have hinstant (t : Instant) : (instant t).IsPlain := isPlain_text _
  refine isPlain_record.2 ?_
  simp only [List.forall_mem_cons, List.not_mem_nil, false_implies, implies_true, and_true,
    isPlain_text, hinstant, isPlain_ofFloat, isPlain_findings, AuditMetrics.isPlain_toJson,
    isPlain_texts, RiskAssessment.isPlain_toJson, isPlain_orNull]

theorem ofJson?_toJson_iff {r : AuditReport} :
    ofJson? r.toJson = some r ↔ r.IsStorable ∧ ∀ x ∈ r.floats, ReadsBack x := by
  rw [ofJson?_eq_some_iff, toJson, exists_fields?_record_iff (by rfl) (by decide), forall_floats]
  rw [optional_orNull_iff (x := r.endTime) (by rfl) rfl,
    optional_orNull_iff (x := r.durationMinutes) (by rfl) rfl,
    optional_orNull_iff (x := r.metrics) (by rfl) rfl,
    optional_orNull_iff (x := r.auditorNotes) (by rfl) rfl,
    optional_orNull_iff (x := r.nextAuditDate) (by rfl) rfl]
  simp only [required, List.lookup_cons_self, List.lookup_cons, String.reduceBEq,
    Option.bind_some, text?_text, variant?_text, AuditLevel.ofName?_name,
    AuditStatus.ofName?_name, instant?_instant_iff, list?_findings_iff,
    AuditMetrics.ofJson?_toJson_iff, list?_texts, RiskAssessment.ofJson?_toJson_iff,
    implies_true, true_and, IsStorable, ReadsBack]
  constructor
  · rintro ⟨hstart, hend, hduration, ⟨hfindings, hconfidence⟩, hmetrics, hrisk, hnext⟩
    exact ⟨⟨hstart, hend, hnext, hfindings, fun m hm => (hmetrics m hm).1, hrisk⟩, hduration,
      hconfidence, fun m hm => (hmetrics m hm).2⟩
  · rintro ⟨⟨hstart, hend, hnext, hfindings, hmetrics, hrisk⟩, hduration, hconfidence, hscores⟩
    exact ⟨hstart, hend, hduration, ⟨hfindings, hconfidence⟩,
      fun m hm => ⟨hmetrics m hm, hscores m hm⟩, hrisk, hnext⟩

theorem of_ofJson? {x : Json} {r : AuditReport} (h : ofJson? x = some r) :
    r.IsStorable ∧ ∀ x ∈ r.floats, x.isFinite := by
  obtain ⟨get, -, -, -, -, -, hstart, hend, hduration, hfindings, hmetrics, -, hrisk, -, hnext⟩ :=
    ofJson?_eq_some_iff.1 h
  obtain ⟨_, hstart⟩ := exists_of_required hstart
  obtain ⟨_, hfindings⟩ := exists_of_required hfindings
  obtain ⟨_, hrisk⟩ := exists_of_required hrisk
  obtain ⟨hfindings, hconfidence⟩ := of_list?_findings hfindings
  have hmetrics := forall_of_optional (fun _ _ => AuditMetrics.of_ofJson?) hmetrics
  refine ⟨⟨isValid_of_instant? hstart, forall_of_optional (fun _ _ => isValid_of_instant?) hend,
    forall_of_optional (fun _ _ => isValid_of_instant?) hnext, hfindings,
    fun m hm => (hmetrics m hm).1, RiskAssessment.of_ofJson? hrisk⟩, ?_⟩
  exact forall_floats.2 ⟨forall_of_optional (fun _ _ => isFinite_of_float?) hduration, hconfidence,
    fun m hm => (hmetrics m hm).2⟩

end AuditReport

end ContractAudit
