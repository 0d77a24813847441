import ContractAudit.Proofs.ExitCodes
import ContractAudit.Proofs.RuleFindings
import ContractAudit.Proofs.Thresholds

/-!
# Verdicts of scans

A scan says in three places what its findings come to: in its recommendations, in the level of its
risk and in its exit code.  The recommendations do not look at LOW findings and the other two do, so
that the three could disagree.  They do not, since every rule is about a danger of at least MEDIUM
severity.

* `Severity.medium_le_of_mem_findingsIn`: the severities that rules find.
* `Severity.sum_scanWeight_lt_ten_iff`: the few such severities that are of little weight.
* `praise_mem_scanRecommendations_iff`: when a scan has nothing to complain about.
* `scanRiskLevel_ofFindings`: the level of some findings is that of their exact weight.

The main statement is `scan_verdicts`.
-/

namespace ContractAudit

/-! ## severities that rules find -/

namespace Severity

theorem medium_le_of_mem_catalogue : ∀ r ∈ catalogue, medium ≤ r.about.severity := by decide

theorem medium_le_of_mem_findingsIn {s : List Char} {f : Finding} (hf : f ∈ findingsIn s) :
    medium ≤ f.severity := by
  obtain ⟨r, hr, hline⟩ := exists_isOnLine hf
  have hseverity : f.severity = r.about.severity := congrArg RuleInfo.severity hline.about_eq
  rw [hseverity]
  exact medium_le_of_mem_catalogue r hr

theorem four_le_scanWeight {v : Severity} (hv : medium ≤ v) : 4 ≤ v.scanWeight := by
  revert hv
  cases v <;> decide

variable {l : List Severity}

theorem four_mul_length_le (hl : ∀ v ∈ l, medium ≤ v) :
    4 * l.length ≤ (l.map scanWeight).sum := by
  induction l with
  | nil => exact Nat.le_refl _
  | cons v l ih =>
    have hv := four_le_scanWeight (hl v List.mem_cons_self)
    have ih := ih fun w hw => hl w (List.mem_cons_of_mem v hw)
    rw [List.length_cons, List.map_cons, List.sum_cons]
    omega

theorem sum_scanWeight_eq_zero_iff (hl : ∀ v ∈ l, medium ≤ v) :
    (l.map scanWeight).sum = 0 ↔ l = [] := by
  constructor
  · intro hsum
    have hlength := four_mul_length_le hl
    exact List.eq_nil_of_length_eq_zero (by omega)
  · rintro rfl
    rfl

/-- three findings are too many, and with a HIGH one two are -/
theorem sum_scanWeight_lt_ten_iff (hl : ∀ v ∈ l, medium ≤ v) : (l.map scanWeight).sum < 10 ↔
    l = [] ∨ l = [medium] ∨ l = [medium, medium] ∨ l = [high] := by
  constructor
  · intro hsum
    have hlength := four_mul_length_le hl
    match l with
    | [] => exact .inl rfl
    | [v] =>
      revert hl hsum
      cases v <;> decide
    | [v, w] =>
      revert hl hsum
      cases v <;> cases w <;> decide
    | _ :: _ :: _ :: l =>
      simp only [List.length_cons] at hlength
      omega
  · rintro (rfl | rfl | rfl | rfl) <;> decide

end Severity

/-! ## levels -/

section
variable {score : Nat}

theorem scanRiskLevel_eq_info_iff : scanRiskLevel score = .info ↔ score = 0 := by
  unfold scanRiskLevel
  split_ifs <;> simp <;> omega

theorem scanRiskLevel_eq_low_iff : scanRiskLevel score = .low ↔ score ≠ 0 ∧ score < 10 := by
  unfold scanRiskLevel
  split_ifs <;> simp <;> omega

end

theorem scanRiskLevel_of_ten_le {score : Nat} (h : 10 ≤ score) :
    scanRiskLevel score = .medium ∨ scanRiskLevel score = .high ∨
      scanRiskLevel score = .critical := by
  unfold scanRiskLevel
  split_ifs <;> simp

theorem scanExitCode_eq_zero_iff {level : RiskLevel} :
    scanExitCode level = 0 ↔ level = .info ∨ level = .low := by
  cases level <;> decide

theorem scanRiskLevel_ofList (l : List Severity) :
    scanRiskLevel (scanRiskScore (.ofList l)) = scanRiskLevel (l.map Severity.scanWeight).sum := by
  rw [scanRiskScore, weightedSum_ofList, scanRiskLevel_min]

/-! ## recommendations -/

section
variable {n : SeverityCounts}

theorem scanRecommendations_of_zero (h : n.critical = 0 ∧ n.high = 0 ∧ n.medium = 0) :
    scanRecommendations n =
      ["No significant security issues found - maintain secure coding practices"] := by
  obtain ⟨hcritical, hhigh, hmedium⟩ := h
  rw [scanRecommendations, hcritical, hhigh, hmedium]
  rfl

/-- LOW and INFO findings are not looked at -/
theorem praise_mem_scanRecommendations_iff :
    "No significant security issues found - maintain secure coding practices" ∈
      scanRecommendations n ↔ n.critical = 0 ∧ n.high = 0 ∧ n.medium = 0 := by
  constructor
  · intro hmem
    unfold scanRecommendations at hmem
    extract_lets advice at hmem
    have hnotAdvice :
        "No significant security issues found - maintain secure coding practices" ∉ advice := by
      simp [advice, mem_adviseIf]
    split_ifs at hmem with hempty
    · have hnil : advice = [] := List.isEmpty_iff.1 hempty
      simp only [advice, adviseIf, List.append_eq_nil_iff] at hnil
      simp at hnil
      obtain ⟨⟨⟨hcritical, hhigh⟩, hmedium⟩, -⟩ := hnil
      exact ⟨hcritical, hhigh, hmedium⟩
    · exact absurd hmem hnotAdvice
  · intro h
    rw [scanRecommendations_of_zero h]
    exact List.mem_singleton_self _

end

theorem SeverityCounts.ofList_zero_iff {l : List Severity} :
    let n := ofList l
    n.critical = 0 ∧ n.high = 0 ∧ n.medium = 0 ↔ ∀ v ∈ l, v < .medium := by
  simp only [ofList, List.count_eq_zero]
  constructor
  · rintro ⟨hcritical, hhigh, hmedium⟩ v hv
    cases v with
    | info | low => decide
    | medium => exact absurd hv hmedium
    | high => exact absurd hv hhigh
    | critical => exact absurd hv hcritical
  · intro h
    exact ⟨fun hv => absurd (h _ hv) (by decide), fun hv => absurd (h _ hv) (by decide),
      fun hv => absurd (h _ hv) (by decide)⟩

theorem Severity.forall_lt_medium_iff {l : List Severity} (hl : ∀ v ∈ l, medium ≤ v) :
    (∀ v ∈ l, v < medium) ↔ l = [] := by
  rw [List.eq_nil_iff_forall_not_mem]
  exact forall_congr' fun v => ⟨fun h hv => Nat.not_lt.2 (hl v hv) (h hv), fun h hv => absurd hv h⟩

/-! ## scans -/

/-- a scan reports of every file what the rules find in a text -/
theorem exists_findingsIn_of_mem_scanFiles (t : FileTree) (files : List Path) :
    ∀ x ∈ (scanFiles t files).files, ∃ s, x.2 = findingsIn s := by
  rw [scanFiles_eq_ofList]
  refine Ordered.forall_ofList (P := fun fs => ∃ s, fs = findingsIn s) fun x hx => ?_
  obtain ⟨-, hfound, hne⟩ := mem_scannedParts.1 hx
  cases hread : t.readText x.1 with
  | error e => exact absurd (hfound.trans (scanFile_of_error hread)) hne
  | ok text =>
    exact ⟨text.toList,
      hfound.trans ((scanFile_of_readText hread).trans (scanText_eq_findingsIn _))⟩

theorem exitCode_runScan_of_not_meetsError {t : FileTree} {q : ScanRequest}
    (hroot : t.pathExists q.path) (hok : ¬ q.MeetsError t) :
    ∃ files, scan t q.path q.options = .ok (.ofFiles t files) ∧
      (runScan t q).exitCode =
        scanExitCode (ScanReport.ofResults (scanFiles t files)).summary.riskLevel := by
  obtain ⟨-, files, hlooks, hcode⟩ := (exitCode_runScan hroot).resolve_left fun h => hok h.1
  refine ⟨files, hlooks.scan_eq, ?_⟩
  have hlevel : (ScanReport.ofResults (scanFiles t files)).summary.riskLevel = _ :=
    riskLevel_ofFiles t files
  rw [hcode, hlevel, scanExitCode_eq]
  split_ifs <;> first | rfl | omega

/-- **The verdicts of a scan agree.**  If every file has what the rules find in some text, a scan
has praise to give if and only if it has no findings, if and only if the risk score is 0, if and
only if the level is INFO, and then there is nothing else to say.  The level is LOW just for one or
two MEDIUM findings or one HIGH finding, and above it where there is a CRITICAL one.  The command
ends with 0 for these two levels only, and its results are of that kind.  All of this is owed to
the rules, none of which is about a LOW or an INFO danger: LOW findings alone can be praised for
what is a CRITICAL level. -/
theorem scan_verdicts {r : ScanResults} (hr : ∀ x ∈ r.files, ∃ s, x.2 = findingsIn s) :
    let report := ScanReport.ofResults r
    let score := report.summary.riskScore
    let level := report.summary.riskLevel
    let found := r.files.flatMap (·.2)
    let severities := found.map (·.severity)
    let praise := "No significant security issues found - maintain secure coding practices"
    (praise ∈ report.recommendations ↔ found = []) ∧
    (score = 0 ↔ found = []) ∧
    (level = .info ↔ found = []) ∧
    (found = [] → report.recommendations = [praise]) ∧
    (level = .low ↔
      severities = [.medium] ∨ severities = [.medium, .medium] ∨ severities = [.high]) ∧
    ((∃ f ∈ found, f.severity = .critical) →
      level = .medium ∨ level = .high ∨ level = .critical) ∧
    (∀ (t : FileTree) (q : ScanRequest), t.pathExists q.path → ¬ q.MeetsError t →
      ∃ files, scan t q.path q.options = .ok (.ofFiles t files) ∧
        (∀ x ∈ (scanFiles t files).files, ∃ s, x.2 = findingsIn s) ∧
        let level := (ScanReport.ofResults (scanFiles t files)).summary.riskLevel
        ((runScan t q).exitCode = 0 ↔ level = .info ∨ level = .low)) ∧
    (∀ rule ∈ catalogue, rule.about.severity ≠ .info ∧ rule.about.severity ≠ .low) ∧
    ∃ n : SeverityCounts, n.critical = 0 ∧ n.high = 0 ∧ n.medium = 0 ∧
      scanRiskLevel (scanRiskScore n) = .critical ∧ scanRecommendations n = [praise] := by
  intro report score level found severities praise
  have hseverities : ∀ v ∈ severities, .medium ≤ v := by
    intro v hv
    obtain ⟨f, hf, rfl⟩ := List.mem_map.1 hv
    obtain ⟨x, hx, hf⟩ := List.mem_flatMap.1 hf
    obtain ⟨s, hs⟩ := hr x hx
    exact Severity.medium_le_of_mem_findingsIn (hs ▸ hf)
  have hnil : severities = [] ↔ found = [] := List.map_eq_nil_iff
  have hlevel : level = scanRiskLevel (severities.map Severity.scanWeight).sum :=
    scanRiskLevel_ofList severities
  have hpraise : praise ∈ report.recommendations ↔ found = [] := by
    rw [← hnil, ← Severity.forall_lt_medium_iff hseverities]
    exact praise_mem_scanRecommendations_iff.trans SeverityCounts.ofList_zero_iff
  have hinfo : level = .info ↔ found = [] := by
    rw [hlevel, scanRiskLevel_eq_info_iff, Severity.sum_scanWeight_eq_zero_iff hseverities, hnil]
  refine ⟨hpraise, ?_, hinfo, fun hnone => ?_, ?_, fun hcritical => ?_, fun t q hroot hok => ?_,
    by decide, ⟨{ low := 50 }, rfl, rfl, rfl, by decide, by decide⟩⟩
  · rw [← hinfo]
    exact scanRiskLevel_eq_info_iff.symm
  · exact scanRecommendations_of_zero (praise_mem_scanRecommendations_iff.1 (hpraise.2 hnone))
  · rw [hlevel, scanRiskLevel_eq_low_iff, Severity.sum_scanWeight_lt_ten_iff hseverities, ne_eq,
      Severity.sum_scanWeight_eq_zero_iff hseverities]
    constructor
    · rintro ⟨hsome, hfew⟩
      exact hfew.resolve_left hsome
    · intro hfew
      refine ⟨fun hnone => ?_, .inr hfew⟩
      simp [hnone] at hfew
  · refine scanRiskLevel_of_ten_le ?_
    show 10 ≤ scanRiskScore (.ofFindings found)
    rw [scanRiskScore_ofFindings]
    exact Nat.le_min.2 ⟨ten_le_weigh_of_critical hcritical, by decide⟩
  · obtain ⟨files, hbrought, hcode⟩ := exitCode_runScan_of_not_meetsError hroot hok
    refine ⟨files, hbrought, exists_findingsIn_of_mem_scanFiles t files, ?_⟩
    rw [hcode]
    exact scanExitCode_eq_zero_iff

/-- two MEDIUM findings on one line of a contract pass, and a CRITICAL one in another does not -/
theorem scan_verdicts_of_two_stamps :
    let source := "let t = block.timestamp;"
    let t : FileTree := ⟨[(["a"], .file source.toUTF8)], []⟩
    let q : ScanRequest := ⟨⟨"a"⟩, ⟨some ⟨"c"⟩, none⟩, "json", none, false⟩
    let r := scanFiles t [⟨"a"⟩]
    let r' : ScanResults := ⟨[(⟨"b"⟩, findingsIn "function f() public".toList)]⟩
    (∀ x ∈ r.files, ∃ s, x.2 = findingsIn s) ∧ t.pathExists q.path ∧ ¬ q.MeetsError t ∧
    (ScanReport.ofResults r).summary.riskLevel = .low ∧ (runScan t q).exitCode = 0 ∧
    (ScanReport.ofResults r').summary.riskLevel ≠ .low := by
  intro source t q r r'
  have hr : ∀ x ∈ r.files, ∃ s, x.2 = findingsIn s := exists_findingsIn_of_mem_scanFiles t _
  have hr' : ∀ x ∈ r'.files, ∃ s, x.2 = findingsIn s :=
    List.forall_mem_singleton.2 ⟨_, rfl⟩
  have hroot : t.pathExists q.path := by cbv
  have hscan : scan t q.path q.options = .ok (.ofFiles t [⟨"a"⟩]) := by
    have hfile : t.isFile ⟨"a"⟩ := by cbv
    refine scan_eq_ok_iff.2 ⟨.default, [⟨"a"⟩], loadFor_of_missing (by cbv), ?_, rfl⟩
    unfold scannedFiles
    rw [if_pos hfile]
  have hok : ¬ q.MeetsError t := by
    rw [meetsError_iff_of_scan hroot hscan]
    rintro ⟨file, e, houtput, -⟩
    cases houtput
  have hread : t.readText ⟨"a"⟩ = .ok source := FileTree.readText_of_readBytes_toUTF8 (by cbv)
  have hfound : r.allFindings.map (·.severity) = [.medium, .medium] := by
    rw [allFindings_scanFiles (List.pairwise_singleton _ _), List.flatMap_singleton,
      scanFile_of_readText hread]
    decide +kernel
  have hcritical : ∃ f ∈ r'.allFindings, f.severity = .critical := by decide +kernel
  obtain ⟨-, -, -, -, hlow, -, hcommand, -⟩ := scan_verdicts hr
  obtain ⟨-, -, -, -, -, habove, -⟩ := scan_verdicts hr'
  have hlevel := hlow.2 (.inr (.inl hfound))
  obtain ⟨files, hfiles, -, hcode⟩ := hcommand t q hroot hok
  have hsame : ScanOutput.ofFiles t files = .ofFiles t [⟨"a"⟩] :=
    Except.ok.inj (hfiles.symm.trans hscan)
  have hreport : ScanReport.ofResults (scanFiles t files) = .ofResults r :=
    congrArg ScanOutput.report hsame
  refine ⟨hr, hroot, hok, hlevel, hcode.2 (.inr ?_), fun h => ?_⟩
  · rw [hreport]
    exact hlevel
  · have habove := habove hcritical
    rw [h] at habove
    exact absurd habove (by decide)

end ContractAudit
