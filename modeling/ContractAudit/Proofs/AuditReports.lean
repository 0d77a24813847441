import ContractAudit.Proofs.AuditOutcomes
import ContractAudit.Proofs.RiskScores
import ContractAudit.Proofs.ScanReports

/-!
# The report of an audit

Every audit comes to a report, which has one of three shapes: the sources were assessed, there were
none, or an error ended the audit.  In each of them all parts of the report fit together.

* `AuditReport.IsAssessed`: the report of an audit that assessed its sources.
* `comprehensiveAudit_of_some`: that is the report when all contracts can be read.
* `AuditReport.Agrees r' r`: the reports say the same about the project.
* `audit_conditions`: the conditions of the three shapes leave nothing out.

The main statement is `audit_report_shapes`.
-/

namespace ContractAudit

namespace AuditReport

def counts (r : AuditReport) : SeverityCounts := r.risk.severityBreakdown

/-- the report of an audit that assessed its sources -/
structure IsAssessed (r : AuditReport) : Prop where
  status : r.status = .completed
  counts_get : ∀ v, r.counts.get v = r.findings.countP (·.severity == v)
  counts_total : r.counts.total = r.findings.length
  riskScore : r.risk.riskScore = (min
    (10 * r.counts.critical + 7 * r.counts.high + 3 * r.counts.medium + r.counts.low)
    4294967295 : Nat)
  riskLevel : r.risk.riskLevel =
    if 50 ≤ r.risk.riskScore then .critical else if 25 ≤ r.risk.riskScore then .high
    else if 10 ≤ r.risk.riskScore then .medium else .low
  recommendation : r.risk.recommendation = r.risk.riskLevel.recommendation
  metrics : ∃ m, r.metrics = some m ∧
    m.securityScore = Float.ofNat (100 - min 100
      (25 * r.counts.critical + 15 * r.counts.high + 5 * r.counts.medium + 2 * r.counts.low)) ∧
    r.risk.deployment = some (Deployment.decide r.risk.riskLevel m) ∧
    r.recommendations = auditRecommendations r.findings m
  needsReview : ∀ f ∈ r.findings, f.needsReview ↔ f.severity = .critical
  auditorNotes : r.auditorNotes = none
  nextAuditDate : r.nextAuditDate = r.endTime.bind Instant.nextYear?

end AuditReport

/-! ## sources that are assessed -/

theorem AuditReport.isAssessed_of_risk {r : AuditReport} {m : AuditMetrics Float}
    (hstatus : r.status = .completed) (hmetrics : r.metrics = some m)
    (hrisk : r.risk = .ofFindings r.findings m)
    (hsecurity : m.securityScore = securityScore (r.findings.map (·.severity)))
    (hrecommendations : r.recommendations = auditRecommendations r.findings m)
    (hreview : ∀ f ∈ r.findings, f.needsReview ↔ f.severity = .critical)
    (hnotes : r.auditorNotes = none)
    (hnext : r.nextAuditDate = r.endTime.bind Instant.nextYear?) : r.IsAssessed := by
  have hcounts : r.counts = .ofFindings r.findings := congrArg (·.severityBreakdown) hrisk
  have hscore : r.risk.riskScore = auditRiskScore r.counts := by
    rw [hcounts]
    exact congrArg (·.riskScore) hrisk
  have hlevel : r.risk.riskLevel = auditRiskLevel (auditRiskScore r.counts) := by
    rw [hcounts]
    exact congrArg (·.riskLevel) hrisk
  have hrecommendation : r.risk.recommendation = r.risk.riskLevel.recommendation := by
    rw [hrisk]
    rfl
  have hdeployment : r.risk.deployment = some (Deployment.decide r.risk.riskLevel m) := by
    rw [hrisk]
    rfl
  refine ⟨hstatus, ?_, ?_, ?_, ?_, hrecommendation, ⟨m, hmetrics, ?_, hdeployment,
    hrecommendations⟩, hreview, hnotes, hnext⟩
  · intro v
    rw [hcounts, SeverityCounts.get_ofFindings]
  · rw [hcounts, SeverityCounts.total_ofFindings]
  · rw [hscore, auditRiskScore_eq]
  · rw [hlevel, hscore, auditRiskLevel_eq]
    split_ifs <;> first | rfl | omega
  · rw [hsecurity, securityScore_float, hcounts]
    rfl

theorem securityScore_of_projectMetrics {sources : List (List Char)}
    {documents : DocumentationPresence} {metrics : AuditMetrics Float}
    (h : projectMetrics sources documents = .ok metrics) :
    metrics.securityScore = securityScore ((auditFindings sources).map (·.severity)) := by
  cases sources with
  | nil => cases h
  | cons s sources => rw [← Except.ok.inj h]

theorem needsReview_of_mem_auditFindings {sources : List (List Char)} {f : Finding}
    (hf : f ∈ auditFindings sources) : f.needsReview ↔ f.severity = .critical := by
  obtain ⟨s, -, hf⟩ := List.mem_flatMap.1 hf
  obtain ⟨f, -, rfl⟩ := List.mem_map.1 hf
  exact beq_iff_eq

section
variable {t : FileTree} {root : Path} {pattern : String} (level : AuditLevel)
  (period : AuditPeriod)

theorem filling_comprehensiveAudit {outcome : AuditOutcome}
    (h : auditOutcome t root pattern = .ok (some outcome)) :
    (comprehensiveAudit t root pattern level period).status = .completed ∧
      (comprehensiveAudit t root pattern level period).filling =
        (AuditOp.complete outcome period.finish).filling period.start := by
  rw [comprehensiveAudit, h]
  exact ⟨rfl, rfl⟩

theorem findings_comprehensiveAudit {sources : List (List Char)} {metrics : AuditMetrics Float}
    (h : auditOutcome t root pattern = .ok (some (.ofSources sources metrics))) :
    (comprehensiveAudit t root pattern level period).findings = auditFindings sources :=
  congrArg AuditFilling.findings (filling_comprehensiveAudit level period h).2

theorem comprehensiveAudit_of_some {sources : List (List Char)}
    {documents : DocumentationPresence} {metrics : AuditMetrics Float}
    (hmetrics : projectMetrics sources documents = .ok metrics)
    (h : auditOutcome t root pattern = .ok (some (.ofSources sources metrics))) :
    (comprehensiveAudit t root pattern level period).IsAssessed := by
  obtain ⟨hstatus, hfilling⟩ := filling_comprehensiveAudit level period h
  generalize comprehensiveAudit t root pattern level period = r at hstatus hfilling ⊢
  have hfindings : r.findings = auditFindings sources :=
    congrArg AuditFilling.findings hfilling
  have hend : r.endTime = some period.finish := congrArg AuditFilling.endTime hfilling
  refine AuditReport.isAssessed_of_risk hstatus (congrArg AuditFilling.metrics hfilling) ?_ ?_ ?_ ?_
    (congrArg AuditFilling.auditorNotes hfilling) ?_
  · rw [hfindings]
    exact congrArg AuditFilling.risk hfilling
  · rw [hfindings]
    exact securityScore_of_projectMetrics hmetrics
  · rw [hfindings]
    exact congrArg AuditFilling.recommendations hfilling
  · rw [hfindings]
    exact fun f hf => needsReview_of_mem_auditFindings hf
  · rw [hend]
    exact congrArg AuditFilling.nextAuditDate hfilling

theorem comprehensiveAudit_heading (t : FileTree) (root : Path) (pattern : String) :
    let r := comprehensiveAudit t root pattern level period
    (r.auditId = auditId period.start root ∧ r.projectName = projectName t root ∧
      r.level = level ∧ r.startTime = period.start) ∧
    r.endTime = some period.finish ∧
    r.durationMinutes = some (period.start.minutesUntil period.finish) := by
  intro r
  simp only [r, comprehensiveAudit]
  split <;> exact ⟨⟨rfl, rfl, rfl, rfl⟩, rfl, rfl⟩

end

/-! ## reports that say the same -/

/-- the reports say the same about the project, whatever they are called and whenever they were
made -/
structure AuditReport.Agrees (r' r : AuditReport) : Prop where
  status : r'.status = r.status
  findings : r'.findings = r.findings
  metrics : r'.metrics = r.metrics
  recommendations : r'.recommendations = r.recommendations
  risk : r'.risk = r.risk

/-- the operation that ends an audit with an outcome -/
def AuditOp.ofOutcome (pattern : String) (finish : Instant) :
    Except AuditError (Option AuditOutcome) → AuditOp
  | .ok (some outcome) => .complete outcome finish
  | .ok none => .completeEmpty pattern finish
  | .error e => .fail e.message finish

/-- which error ends an audit makes no difference to what is said about the project -/
theorem AuditOp.ofOutcome_congr {x x' : Except AuditError (Option AuditOutcome)}
    (h : x'.toOption = x.toOption) (pattern : String) (finish finish' start start' : Instant) :
    let op := AuditOp.ofOutcome pattern finish x
    let op' := AuditOp.ofOutcome pattern finish' x'
    op'.target = op.target ∧ (op'.filling start').findings = (op.filling start).findings ∧
      (op'.filling start').metrics = (op.filling start).metrics ∧
      (op'.filling start').recommendations = (op.filling start).recommendations ∧
      (op'.filling start').risk = (op.filling start).risk := by
  cases x with
  | error e =>
    cases x' with
    | error e' => exact ⟨rfl, rfl, rfl, rfl, rfl⟩
    | ok brought' => cases h
  | ok brought =>
    cases x' with
    | error e' => cases h
    | ok brought' =>
      obtain rfl : brought' = brought := Option.some.inj h
      cases brought' <;> exact ⟨rfl, rfl, rfl, rfl, rfl⟩

theorem comprehensiveAudit_ofOutcome (t : FileTree) (root : Path) (pattern : String)
    (level : AuditLevel) (period : AuditPeriod) :
    let r := comprehensiveAudit t root pattern level period
    let op := AuditOp.ofOutcome pattern period.finish (auditOutcome t root pattern)
    r.status = op.target ∧ r.filling = op.filling period.start := by
  intro r op
  simp only [r, op, comprehensiveAudit]
  cases auditOutcome t root pattern with
  | error e => exact ⟨rfl, rfl⟩
  | ok brought => cases brought <;> exact ⟨rfl, rfl⟩

theorem agrees_comprehensiveAudit {t t' : FileTree} {root root' : Path} {pattern : String}
    (h : (auditOutcome t' root' pattern).toOption = (auditOutcome t root pattern).toOption)
    (level level' : AuditLevel) (period period' : AuditPeriod) :
    (comprehensiveAudit t' root' pattern level' period').Agrees
      (comprehensiveAudit t root pattern level period) := by
  obtain ⟨hstatus, hfilling⟩ := comprehensiveAudit_ofOutcome t root pattern level period
  obtain ⟨hstatus', hfilling'⟩ := comprehensiveAudit_ofOutcome t' root' pattern level' period'
  obtain ⟨htarget, hfindings, hmetrics, hadvice, hrisk⟩ :=
    AuditOp.ofOutcome_congr h pattern period.finish period'.finish period.start period'.start
  rw [← hstatus, ← hstatus'] at htarget
  rw [← hfilling, ← hfilling'] at hfindings hmetrics hadvice hrisk
  exact ⟨htarget, hfindings, hmetrics, hadvice, hrisk⟩

/-! ## shapes and their conditions -/

namespace AuditReport

variable {r : AuditReport} {pattern : String} {e : AuditError}

theorem IsAssessed.not_isEmpty (h : r.IsAssessed) : ¬ r.IsEmpty pattern := by
  intro hempty
  obtain ⟨m, hm, -⟩ := h.metrics
  rw [hempty.metrics] at hm
  cases hm

theorem IsFailed.not_isAssessed (h : r.IsFailed e) : ¬ r.IsAssessed := by
  intro hassessed
  have hstatus := h.status
  rw [hassessed.status] at hstatus
  cases hstatus

theorem IsFailed.not_isEmpty (h : r.IsFailed e) : ¬ r.IsEmpty pattern := by
  intro hempty
  have hstatus := h.status
  rw [hempty.status] at hstatus
  cases hstatus

end AuditReport

namespace FileTree

/-- a walk comes to contracts, and all of them can be read -/
def HasReadableContracts (t : FileTree) (root : Path) (pattern : String) : Prop :=
  ∃ g entries, Glob.parse pattern = .ok g ∧ t.walk root = .ok entries ∧
    entries.filter (isContract g) ≠ [] ∧
    ∀ x ∈ entries.filter (isContract g), ∃ s, t.readText x.1 = .ok s

/-- the root does not exist, or a walk comes to no contract -/
def HasNoContracts (t : FileTree) (root : Path) (pattern : String) : Prop :=
  ∃ g, Glob.parse pattern = .ok g ∧
    (¬ t.pathExists root ∨
      ∃ entries, t.walk root = .ok entries ∧ entries.filter (isContract g) = [])

/-- the pattern is none, the walk meets an error, or a contract cannot be read -/
def StopsAudit (t : FileTree) (root : Path) (pattern : String) : Prop :=
  (∃ e, Glob.parse pattern = .error e) ∨
    ∃ g, Glob.parse pattern = .ok g ∧ t.pathExists root ∧
      ((∃ e, t.walk root = .error e) ∨
        ∃ entries, t.walk root = .ok entries ∧
          ∃ x ∈ entries.filter (isContract g), ∃ e, t.readText x.1 = .error e)

end FileTree

section
variable {t : FileTree} {root : Path} {pattern : String} (level : AuditLevel)
  (period : AuditPeriod)

theorem isAssessed_of_hasReadableContracts (h : t.HasReadableContracts root pattern) :
    (comprehensiveAudit t root pattern level period).IsAssessed := by
  obtain ⟨g, entries, hg, hwalk, hmatching, hread⟩ := h
  choose! text htext using exists_text_of_contracts hread
  obtain ⟨metrics, hmetrics, houtcome⟩ := auditOutcome_of_readable hg hwalk hmatching htext
  exact comprehensiveAudit_of_some level period hmetrics houtcome

theorem isEmpty_of_hasNoContracts (h : t.HasNoContracts root pattern) :
    (comprehensiveAudit t root pattern level period).IsEmpty pattern := by
  obtain ⟨g, hg, h⟩ := h
  exact comprehensiveAudit_of_none level period (auditOutcome_of_no_contracts hg h)

theorem isFailed_of_stopsAudit (h : t.StopsAudit root pattern) :
    ∃ e, (comprehensiveAudit t root pattern level period).IsFailed e := by
  rcases h with ⟨e, hg⟩ | ⟨g, hg, hroot, ⟨e, hwalk⟩ | ⟨entries, hwalk, hbad⟩⟩
  · exact ⟨_, comprehensiveAudit_of_error level period (auditOutcome_of_parse_error hg)⟩
  · exact ⟨_, comprehensiveAudit_of_error level period (auditOutcome_of_walk_error hg hroot hwalk)⟩
  · obtain ⟨before, file, after, e, -, -, -, houtcome⟩ := auditOutcome_of_unreadable hg hwalk hbad
    exact ⟨_, comprehensiveAudit_of_error level period houtcome⟩

/-- the three conditions leave nothing out -/
theorem audit_conditions (t : FileTree) (root : Path) (pattern : String) :
    t.HasReadableContracts root pattern ∨ t.HasNoContracts root pattern ∨
      t.StopsAudit root pattern := by
  cases hg : Glob.parse pattern with
  | error e => exact .inr (.inr (.inl ⟨e, hg⟩))
  | ok g =>
    by_cases hroot : t.pathExists root
    · cases hwalk : t.walk root with
      | error e => exact .inr (.inr (.inr ⟨g, hg, hroot, .inl ⟨e, hwalk⟩⟩))
      | ok entries =>
        by_cases hmatching : entries.filter (isContract g) = []
        · exact .inr (.inl ⟨g, hg, .inr ⟨entries, hwalk, hmatching⟩⟩)
        · by_cases hread : ∀ x ∈ entries.filter (isContract g), ∃ s, t.readText x.1 = .ok s
          · exact .inl ⟨g, entries, hg, hwalk, hmatching, hread⟩
          · push Not at hread
            obtain ⟨x, hx, hne⟩ := hread
            cases hx' : t.readText x.1 with
            | ok s => exact absurd hx' (hne s)
            | error e => exact .inr (.inr (.inr ⟨g, hg, hroot, .inr ⟨entries, hwalk, x, hx, e, hx'⟩⟩))
    · exact .inr (.inl ⟨g, hg, .inl hroot⟩)

end

/-- **Every audit comes to a report that is complete and fits together.**  It has its heading, its
end and its duration, and exactly one of three shapes.  The sources are assessed when a walk comes
to contracts and all of them can be read; the report is empty when the pattern is one and the root
does not exist or has no contracts; and it is that of a failure when the pattern is none, the walk
meets an error or a contract cannot be read. -/
theorem audit_report_shapes (t : FileTree) (root : Path) (pattern : String) (level : AuditLevel)
    (period : AuditPeriod) :
    let report := comprehensiveAudit t root pattern level period
    (report.auditId = auditId period.start root ∧ report.projectName = projectName t root ∧
      report.level = level ∧ report.startTime = period.start) ∧
    report.endTime = some period.finish ∧
    report.durationMinutes = some (period.start.minutesUntil period.finish) ∧
    (report.status = .completed ∨ report.status = .failed) ∧
    (report.IsAssessed ↔ t.HasReadableContracts root pattern) ∧
    (report.IsEmpty pattern ↔ t.HasNoContracts root pattern) ∧
    ((∃ e, report.IsFailed e) ↔ t.StopsAudit root pattern) ∧
    (report.IsAssessed ∧ ¬ report.IsEmpty pattern ∧ (¬ ∃ e, report.IsFailed e) ∨
      ¬ report.IsAssessed ∧ report.IsEmpty pattern ∧ (¬ ∃ e, report.IsFailed e) ∨
      ¬ report.IsAssessed ∧ ¬ report.IsEmpty pattern ∧ ∃ e, report.IsFailed e) := by
  intro report
  have hassessed : t.HasReadableContracts root pattern → report.IsAssessed :=
    isAssessed_of_hasReadableContracts level period
  have hempty : t.HasNoContracts root pattern → report.IsEmpty pattern :=
    isEmpty_of_hasNoContracts level period
  have hfailed : t.StopsAudit root pattern → ∃ e, report.IsFailed e :=
    isFailed_of_stopsAudit level period
  have hassessed_empty : report.IsAssessed → ¬ report.IsEmpty pattern :=
    AuditReport.IsAssessed.not_isEmpty
  have hfailed_assessed : (∃ e, report.IsFailed e) → ¬ report.IsAssessed :=
    fun ⟨_, h⟩ => h.not_isAssessed
  have hfailed_empty : (∃ e, report.IsFailed e) → ¬ report.IsEmpty pattern :=
    fun ⟨_, h⟩ => h.not_isEmpty
  obtain ⟨hheading, hend, hduration⟩ := comprehensiveAudit_heading level period t root pattern
  refine ⟨hheading, hend, hduration, ?_, ⟨fun h => ?_, hassessed⟩, ⟨fun h => ?_, hempty⟩,
    ⟨fun h => ?_, hfailed⟩, ?_⟩
  all_goals rcases audit_conditions t root pattern with hread | hnone | hstop
  -- the state of the report
  · exact .inl (hassessed hread).status
  · exact .inl (hempty hnone).status
  · obtain ⟨e, he⟩ := hfailed hstop
    exact .inr he.status
  -- each shape goes with its own condition, since the others come to other shapes
  · exact hread
  · exact absurd (hempty hnone) (hassessed_empty h)
  · exact absurd h (hfailed_assessed (hfailed hstop))
  · exact absurd h (hassessed_empty (hassessed hread))
  · exact hnone
  · exact absurd h (hfailed_empty (hfailed hstop))
  · exact absurd (hassessed hread) (hfailed_assessed h)
  · exact absurd (hempty hnone) (hfailed_empty h)
  · exact hstop
  -- there is just one shape
  · have h := hassessed hread
    exact .inl ⟨h, hassessed_empty h, fun hf => hfailed_assessed hf h⟩
  · have h := hempty hnone
    exact .inr (.inl ⟨fun ha => hassessed_empty ha h, h, fun hf => hfailed_empty hf h⟩)
  · have h := hfailed hstop
    exact .inr (.inr ⟨hfailed_assessed h, hfailed_empty h, h⟩)

/-- a pattern that is none fails an audit even where there is nothing to audit -/
theorem audit_fails_without_root :
    let t : FileTree := ⟨[], []⟩
    let root : Path := ⟨"missing"⟩
    let report := comprehensiveAudit t root "[" .standard ⟨⟨0, 0⟩, ⟨0, 0⟩⟩
    ¬ t.pathExists root ∧ report.status = .failed ∧ ¬ report.IsEmpty "[" := by
  intro t root report
  have hroot : t.pathExists root = false := by
    unfold root
    cbv
  have hparse : Glob.parse "[" = .error ⟨0, .invalidRange⟩ := by cbv
  have hfailed : report.IsFailed (.pattern ⟨0, .invalidRange⟩) :=
    comprehensiveAudit_of_error _ _ (auditOutcome_of_parse_error hparse)
  exact ⟨ne_true_of_eq_false hroot, hfailed.status, hfailed.not_isEmpty⟩

end ContractAudit
