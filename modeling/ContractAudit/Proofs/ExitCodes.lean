import ContractAudit.CommandLine.Run
import ContractAudit.Proofs.AuditIds
import ContractAudit.Proofs.AuditReports
import ContractAudit.Proofs.UnreadableContracts

/-!
# Exit codes

Scans and audits weigh findings in their own ways, stop at their own bounds and deal with errors
in their own ways.  Even so, what a scan lets pass an audit lets pass as well.

* `weigh`: the weight of findings, which is exact.
* `ScanRequest.LooksAt`: the files that a scan looks at.
* `ScanRequest.MeetsError`, `AuditRequest.MeetsError`: the errors that end a command with 2.
* `exitCode_runScan`, `exitCode_runAudit`: the exit code of a command that meets none.
* `isFailed_of_stopsAudit`: what ends a scan with an error makes an audit fail.
* `weigh_audit_le_scan`: the findings of an audit weigh no more than those of a scan.

The main statement is `exit_codes`.
-/

namespace ContractAudit

/-! ## weights -/

/-- the weight of findings, where those of MEDIUM severity weigh so much -/
def weigh (medium : Nat) (fs : List Finding) : Nat :=
  10 * fs.countP (·.severity == .critical) + 7 * fs.countP (·.severity == .high) +
    medium * fs.countP (·.severity == .medium) + fs.countP (·.severity == .low)

section
variable {fs : List Finding}

theorem weigh_forAudit (medium : Nat) (fs : List Finding) :
    weigh medium (fs.map (·.forAudit)) = weigh medium fs := by
  simp only [weigh, List.countP_map]
  rfl

theorem weigh_mono {medium medium' : Nat} (h : medium ≤ medium') (fs : List Finding) :
    weigh medium fs ≤ weigh medium' fs := by
  have hmul := Nat.mul_le_mul_right (fs.countP (·.severity == .medium)) h
  unfold weigh
  omega

theorem ten_le_weigh_of_critical {medium : Nat} (h : ∃ f ∈ fs, f.severity = .critical) :
    10 ≤ weigh medium fs := by
  obtain ⟨f, hf, hcritical⟩ := h
  have hpos : 0 < fs.countP (·.severity == .critical) :=
    List.countP_pos_iff.2 ⟨f, hf, beq_iff_eq.2 hcritical⟩
  unfold weigh
  omega

theorem scanRiskScore_ofFindings (fs : List Finding) :
    scanRiskScore (.ofFindings fs) = min (weigh 4 fs) 4294967295 := by
  rw [scanRiskScore_eq]
  simp only [weigh, ← SeverityCounts.get_ofFindings]
  rfl

theorem scanExitCode_eq (score : Nat) :
    scanExitCode (scanRiskLevel score) = if score < 10 then 0 else 1 := by
  unfold scanRiskLevel
  split_ifs <;> first | rfl | omega

end

/-! ## what a scan reports -/

namespace ScanReport

/-- the findings of all files, in the order in which a report lists the files -/
def findings (r : ScanReport) : List Finding := r.detailedFindings.flatMap (·.2)

/-- if the paths are texts, a report lists the findings that it counts -/
theorem findings_ofResults {r : ScanResults} (hr : Ordered.Increases r.files)
    (hutf8 : ∀ x ∈ r.files, x.1.raw.IsUtf8) : (ofResults r).findings.Perm r.allFindings := by
  have h := (detailedFindings_perm hr hutf8).flatMap_right (·.2)
  rw [List.flatMap_map] at h
  exact h

end ScanReport

section
variable {t : FileTree} {r : ScanRequest}

theorem riskLevel_ofFiles (t : FileTree) (files : List Path) :
    (ScanOutput.ofFiles t files).report.summary.riskLevel =
      scanRiskLevel (min (weigh 4 (scanFiles t files).allFindings) 4294967295) := by
  rw [← scanRiskScore_ofFindings]
  rfl

/-! ## errors -/

/-- the errors that end a scan with 2 -/
inductive ScanRequest.MeetsError (t : FileTree) (r : ScanRequest) : Prop
  | config {e : AuditError} : Config.loadFor t r.path r.options.config = .error e → MeetsError t r
  /-- only a directory is scanned with a pattern -/
  | pattern {config : Config} {e : GlobError} :
      Config.loadFor t r.path r.options.config = .ok config → ¬ t.isFile r.path →
      Glob.parse (r.options.pattern.getD config.pattern) = .error e → MeetsError t r
  | walk {config : Config} {g : Glob.Pattern} {e : WalkError} :
      Config.loadFor t r.path r.options.config = .ok config → ¬ t.isFile r.path →
      Glob.parse (r.options.pattern.getD config.pattern) = .ok g → t.walk r.path = .error e →
      MeetsError t r
  | write {brought : ScanOutput} {file : Path} {e : IoError} :
      scan t r.path r.options = .ok brought → r.output = some file →
      t.writeText file (brought.report.render ((OutputFormat.ofText? r.format).getD .console)) =
        .error e → MeetsError t r

/-- what an audit is told once its level is known -/
def AuditRequest.options (r : AuditRequest) (level : Option AuditLevel) : AuditOptions :=
  ⟨r.config, level, r.pattern, r.outputDirectory⟩

/-- the errors that end an audit with 2 -/
inductive AuditRequest.MeetsError (t : FileTree) (r : AuditRequest) (period : AuditPeriod) : Prop
  /-- the text for the level is the name of none, in whatever case -/
  | level {text : String} : r.level = some text →
      (∀ l : AuditLevel, Text.lowercase text.toList ≠ Text.lowercase l.name.toList) →
      MeetsError t r period
  | config {e : AuditError} : Config.loadFor t r.path r.config = .error e → MeetsError t r period
  | write {level : Option AuditLevel} {config : Config} {e : AuditError} :
      r.readLevel = .ok level → Config.loadFor t r.path r.config = .ok config →
      ((auditWith t r.path (r.options level) config period).save t
        (r.outputDirectory.getD config.outputDirectory)).2 = .error e → MeetsError t r period

theorem AuditLevel.ofText?_eq_none_iff {s : String} : AuditLevel.ofText? s = none ↔
    ∀ l : AuditLevel, Text.lowercase s.toList ≠ Text.lowercase l.name.toList := by
  have hall (l : AuditLevel) : l ∈ AuditLevel.all := by cases l <;> decide
  rw [AuditLevel.ofText?, List.find?_eq_none]
  refine forall_congr' fun l => ?_
  rw [forall_prop_of_true (hall l), beq_iff_eq, eq_comm]

theorem AuditRequest.readLevel_eq_error_iff {r : AuditRequest} :
    (∃ e, r.readLevel = .error e) ↔ ∃ text, r.level = some text ∧
      ∀ l : AuditLevel, Text.lowercase text.toList ≠ Text.lowercase l.name.toList := by
  unfold AuditRequest.readLevel
  cases r.level with
  | none => simp
  | some text =>
    simp only [Option.some.injEq, exists_eq_left', ← AuditLevel.ofText?_eq_none_iff]
    cases AuditLevel.ofText? text <;> simp

/-- finding files ends with an error if the pattern is none or the walk meets one -/
theorem scannedFiles_eq_error_iff {root : Path} {pattern : String} (hroot : t.pathExists root) :
    (∃ e, scannedFiles t root pattern = .error e) ↔ ¬ t.isFile root ∧
      ((∃ e, Glob.parse pattern = .error e) ∨
        ∃ g e, Glob.parse pattern = .ok g ∧ t.walk root = .error e) := by
  unfold scannedFiles
  split
  · rename_i hfile
    simp [hfile]
  · rename_i hfile
    rw [and_iff_right hfile]
    cases hg : Glob.parse pattern with
    | error e => simp [discover_of_parse_error hg]
    | ok g =>
      cases hwalk : t.walk root with
      | error e => simp [discover_of_walk_error hg hroot hwalk]
      | ok entries => simp [discover_of_walk hg hroot hwalk]

theorem meetsError_of_scan_error (hroot : t.pathExists r.path) {e : AuditError}
    (h : scan t r.path r.options = .error e) : r.MeetsError t := by
  unfold scan at h
  cases hload : Config.loadFor t r.path r.options.config with
  | error e => exact .config hload
  | ok config =>
    rw [hload] at h
    have hfiles : ∃ e,
        scannedFiles t r.path (r.options.pattern.getD config.pattern) = .error e := by
      cases hfiles : scannedFiles t r.path (r.options.pattern.getD config.pattern) with
      | error e => exact ⟨e, rfl⟩
      | ok files => simp [bind, Except.bind, hfiles, pure, Except.pure] at h
    obtain ⟨hfile, ⟨e, hg⟩ | ⟨g, e, hg, hwalk⟩⟩ := (scannedFiles_eq_error_iff hroot).1 hfiles
    · exact .pattern hload hfile hg
    · exact .walk hload hfile hg hwalk

/-- a scan that brings something meets an error only if that cannot be written -/
theorem meetsError_iff_of_scan (hroot : t.pathExists r.path) {brought : ScanOutput}
    (h : scan t r.path r.options = .ok brought) :
    r.MeetsError t ↔ ∃ file e, r.output = some file ∧ t.writeText file
      (brought.report.render ((OutputFormat.ofText? r.format).getD .console)) = .error e := by
  obtain ⟨config, files, hload, hfiles, -⟩ := scan_eq_ok_iff.1 h
  have hnone : ¬ ∃ e, scannedFiles t r.path (r.options.pattern.getD config.pattern) = .error e := by
    simp [hfiles]
  rw [scannedFiles_eq_error_iff hroot] at hnone
  constructor
  · intro herror
    cases herror with
    | config hload' => simp [hload] at hload'
    | pattern hload' hfile hg =>
      obtain rfl := Except.ok.inj (hload.symm.trans hload')
      exact absurd ⟨hfile, .inl ⟨_, hg⟩⟩ hnone
    | walk hload' hfile hg hwalk =>
      obtain rfl := Except.ok.inj (hload.symm.trans hload')
      exact absurd ⟨hfile, .inr ⟨_, _, hg, hwalk⟩⟩ hnone
    | write h' hfile hwrite =>
      obtain rfl := Except.ok.inj (h.symm.trans h')
      exact ⟨_, _, hfile, hwrite⟩
  · rintro ⟨file, e, hfile, hwrite⟩
    exact .write h hfile hwrite

/-- the files that a scan looks at, if it can find them out -/
def ScanRequest.LooksAt (t : FileTree) (r : ScanRequest) (files : List Path) : Prop :=
  ∃ config, Config.loadFor t r.path r.options.config = .ok config ∧
    scannedFiles t r.path (r.options.pattern.getD config.pattern) = .ok files

theorem ScanRequest.LooksAt.scan_eq {files : List Path} (h : r.LooksAt t files) :
    scan t r.path r.options = .ok (.ofFiles t files) := by
  obtain ⟨config, hload, hfiles⟩ := h
  exact scan_eq_ok_iff.2 ⟨config, files, hload, hfiles, rfl⟩

/-- a scan ends with 2 if it meets an error, and otherwise by the weight of its findings -/
theorem exitCode_runScan_of_error (hroot : t.pathExists r.path) {e : AuditError}
    (h : scan t r.path r.options = .error e) : (runScan t r).exitCode = e.exitCode := by
  unfold runScan
  rw [if_neg (by simp [hroot]), h]
  rfl

theorem exitCode_runScan_of_ok (hroot : t.pathExists r.path) {brought : ScanOutput}
    (h : scan t r.path r.options = .ok brought) : (runScan t r).exitCode =
      (showScan t r ((OutputFormat.ofText? r.format).getD .console) brought).exitCode := by
  unfold runScan
  rw [if_neg (by simp [hroot]), h]
  rfl

theorem exitCode_runScan (hroot : t.pathExists r.path) :
    r.MeetsError t ∧ (runScan t r).exitCode = 2 ∨
      ¬ r.MeetsError t ∧ ∃ files, r.LooksAt t files ∧
        (runScan t r).exitCode =
          if weigh 4 (scanFiles t files).allFindings < 10 then 0 else 1 := by
  cases hscan : scan t r.path r.options with
  | error e =>
    rw [exitCode_runScan_of_error hroot hscan]
    exact .inl ⟨meetsError_of_scan_error hroot hscan, rfl⟩
  | ok brought =>
    obtain ⟨config, files, hload, hfiles, rfl⟩ := scan_eq_ok_iff.1 hscan
    have hlooks : r.LooksAt t files := ⟨config, hload, hfiles⟩
    rw [exitCode_runScan_of_ok hroot hscan]
    have hcode : scanExitCode (ScanOutput.ofFiles t files).report.summary.riskLevel =
        if weigh 4 (scanFiles t files).allFindings < 10 then 0 else 1 := by
      rw [riskLevel_ofFiles, scanExitCode_eq]
      split_ifs <;> first | rfl | omega
    rw [meetsError_iff_of_scan hroot hscan]
    simp only [showScan]
    cases r.output with
    | none => exact .inr ⟨by simp, files, hlooks, hcode⟩
    | some file =>
      simp only [ScanReport.save]
      cases hwrite : t.writeText file
          ((ScanOutput.ofFiles t files).report.render
            ((OutputFormat.ofText? r.format).getD .console)) with
      | error e => exact .inl ⟨⟨file, e, rfl, hwrite⟩, rfl⟩
      | ok t' => exact .inr ⟨by simp [hwrite], files, hlooks, hcode⟩

theorem exitCode_runScan_eq_two_iff (hroot : t.pathExists r.path) :
    (runScan t r).exitCode = 2 ↔ r.MeetsError t := by
  rcases exitCode_runScan hroot with ⟨herror, hcode⟩ | ⟨hok, files, -, hcode⟩
  · exact iff_of_true hcode herror
  · refine iff_of_false (fun htwo => ?_) hok
    rw [hcode] at htwo
    split_ifs at htwo
    omega

end

/-! ## audits -/

section
variable {t : FileTree} {r : AuditRequest} {period : AuditPeriod}

theorem AuditReport.IsAssessed.exitCode {r : AuditReport} (h : r.IsAssessed) :
    auditExitCode r.risk.riskLevel = if 25 ≤ weigh 3 r.findings then 1 else 0 := by
  have hscore : r.risk.riskScore = (min (weigh 3 r.findings) 4294967295 : Nat) := by
    rw [h.riskScore]
    simp only [weigh, ← h.counts_get]
    rfl
  rw [h.riskLevel, hscore]
  split_ifs <;> first | rfl | omega

/-- whatever became of an audit, its exit code is a matter of its state and its findings -/
theorem auditExitCode_comprehensiveAudit (t : FileTree) (root : Path) (pattern : String)
    (level : AuditLevel) (period : AuditPeriod) :
    let report := comprehensiveAudit t root pattern level period
    auditExitCode report.risk.riskLevel =
      if report.status = .completed ∧ 25 ≤ weigh 3 report.findings then 1 else 0 := by
  intro report
  rcases audit_conditions t root pattern with hread | hnone | hstop
  · have h : report.IsAssessed := isAssessed_of_hasReadableContracts level period hread
    rw [h.exitCode, h.status]
    simp
  · have h : report.IsEmpty pattern := isEmpty_of_hasNoContracts level period hnone
    rw [h.riskLevel, h.findings, h.status]
    rfl
  · obtain ⟨e, h⟩ := isFailed_of_stopsAudit level period hstop
    have h : report.IsFailed e := h
    rw [h.riskLevel, h.status]
    rfl

theorem riskLevel_of_failed {root : Path} {pattern : String} {level : AuditLevel}
    {period : AuditPeriod}
    (h : (comprehensiveAudit t root pattern level period).status = .failed) :
    (comprehensiveAudit t root pattern level period).risk.riskLevel = .unknown := by
  rcases audit_conditions t root pattern with hread | hnone | hstop
  · rw [(isAssessed_of_hasReadableContracts level period hread).status] at h
    cases h
  · rw [(isEmpty_of_hasNoContracts level period hnone).status] at h
    cases h
  · obtain ⟨e, hfailed⟩ := isFailed_of_stopsAudit level period hstop
    exact hfailed.riskLevel

theorem auditAndSave_of_loadFor {root : Path} {o : AuditOptions} {config : Config}
    (hload : Config.loadFor t root o.config = .ok config) :
    let report := auditWith t root o config period
    let saved := report.save t (o.outputDirectory.getD config.outputDirectory)
    auditAndSave t root o period = (saved.1, saved.2.map fun file => ⟨report, file⟩) := by
  unfold auditAndSave
  rw [hload]

theorem exitCode_runAudit_of_readLevel (hroot : t.pathExists r.path) {level : Option AuditLevel}
    (hlevel : r.readLevel = .ok level) : (runAudit t r period).exitCode =
      match (auditAndSave t r.path (r.options level) period).2 with
      | .ok saved => auditExitCode saved.report.risk.riskLevel
      | .error e => e.exitCode := by
  unfold runAudit AuditRequest.options
  rw [if_neg (by simp [hroot]), hlevel]
  simp only
  cases auditAndSave t r.path ⟨r.config, level, r.pattern, r.outputDirectory⟩ period with
  | mk t' saved => cases saved <;> rfl

theorem not_meetsError_of_save {level : Option AuditLevel} {config : Config} {file : Path}
    (hlevel : r.readLevel = .ok level) (hload : Config.loadFor t r.path r.config = .ok config)
    (hsave : ((auditWith t r.path (r.options level) config period).save t
      (r.outputDirectory.getD config.outputDirectory)).2 = .ok file) :
    ¬ r.MeetsError t period := by
  intro herror
  cases herror with
  | level htext hnone =>
    obtain ⟨e, he⟩ := AuditRequest.readLevel_eq_error_iff.2 ⟨_, htext, hnone⟩
    exact absurd (hlevel.symm.trans he) (by simp)
  | config h => simp [hload] at h
  | write hlevel' hload' h =>
    obtain rfl := Except.ok.inj (hlevel.symm.trans hlevel')
    obtain rfl := Except.ok.inj (hload.symm.trans hload')
    exact absurd (hsave.symm.trans h) (by simp)

/-- an audit ends with 2 if it meets an error, and otherwise by the risk in its report -/
theorem exitCode_runAudit (hroot : t.pathExists r.path) (period : AuditPeriod) :
    r.MeetsError t period ∧ (runAudit t r period).exitCode = 2 ∨
      ¬ r.MeetsError t period ∧ ∃ level config file, r.readLevel = .ok level ∧
        Config.loadFor t r.path r.config = .ok config ∧
        (auditAndSave t r.path (r.options level) period).2 =
          .ok ⟨auditWith t r.path (r.options level) config period, file⟩ ∧
        (runAudit t r period).exitCode =
          auditExitCode (auditWith t r.path (r.options level) config period).risk.riskLevel := by
  cases hlevel : r.readLevel with
  | error e =>
    obtain ⟨text, htext, hnone⟩ := AuditRequest.readLevel_eq_error_iff.1 ⟨e, hlevel⟩
    refine .inl ⟨.level htext hnone, ?_⟩
    unfold runAudit
    rw [if_neg (by simp [hroot]), hlevel]
    rfl
  | ok level =>
    rw [exitCode_runAudit_of_readLevel hroot hlevel]
    cases hload : Config.loadFor t r.path r.config with
    | error e =>
      refine .inl ⟨.config hload, ?_⟩
      unfold auditAndSave AuditRequest.options
      rw [hload]
      rfl
    | ok config =>
      have hload' : Config.loadFor t r.path (r.options level).config = .ok config := hload
      simp only [auditAndSave_of_loadFor hload']
      cases hsave : ((auditWith t r.path (r.options level) config period).save t
          ((r.options level).outputDirectory.getD config.outputDirectory)).2 with
      | error e => exact .inl ⟨.write hlevel hload hsave, rfl⟩
      | ok file =>
        refine .inr ⟨not_meetsError_of_save hlevel hload hsave, level, config, file, rfl, rfl, ?_,
          rfl⟩
        simp only [auditAndSave_of_loadFor hload', hsave]
        rfl

theorem exitCode_runAudit_eq_two_iff (hroot : t.pathExists r.path) (period : AuditPeriod) :
    (runAudit t r period).exitCode = 2 ↔ r.MeetsError t period := by
  rcases exitCode_runAudit hroot period with
    ⟨herror, hcode⟩ | ⟨hok, level, config, file, -, -, -, hcode⟩
  · exact iff_of_true hcode herror
  · refine iff_of_false (fun htwo => ?_) hok
    rw [hcode] at htwo
    unfold auditExitCode at htwo
    split_ifs at htwo
    omega

/-! ## both of them -/

/-- If a scan comes to its end, the findings of a completed audit weigh no more than those of the
scan. -/
theorem weigh_audit_le_scan (ht : t.IsSound) {root : Path} {pattern : String} {files : List Path}
    (hfiles : scannedFiles t root pattern = .ok files) (level : AuditLevel)
    (period : AuditPeriod) :
    weigh 3 (comprehensiveAudit t root pattern level period).findings ≤
      weigh 4 (scanFiles t files).allFindings := by
  rcases audit_conditions t root pattern with hread | hnone | hstop
  · obtain ⟨g, entries, hg, hwalk, hmatching, hread⟩ := hread
    obtain rfl := Except.ok.inj ((scannedFiles_of_walk hg hwalk hmatching).symm.trans hfiles)
    choose! text htext using exists_text_of_contracts hread
    obtain ⟨metrics, -, houtcome⟩ := auditOutcome_of_readable hg hwalk hmatching htext
    have haudit := findings_comprehensiveAudit level period houtcome
    calc weigh 3 (comprehensiveAudit t root pattern level period).findings
      _ = weigh 3 (auditFindings ((contracts g entries).map fun file => (text file).toList)) := by
        exact congrArg (weigh 3) haudit
      _ = weigh 3 ((contracts g entries).flatMap (scanFile t)) := by
        rw [auditFindings_of_readText htext, weigh_forAudit]
      _ ≤ weigh 4 ((contracts g entries).flatMap (scanFile t)) := weigh_mono (by decide) _
      _ = weigh 4 (scanFiles t (contracts g entries)).allFindings := by
        rw [allFindings_scanFiles (ht.increases_contracts hwalk g)]
  · rw [(isEmpty_of_hasNoContracts level period hnone).findings]
    exact Nat.zero_le _
  · obtain ⟨e, h⟩ := isFailed_of_stopsAudit level period hstop
    rw [h.findings]
    exact Nat.zero_le _

section
variable {s : ScanRequest} {a : AuditRequest} (hpath : a.path = s.path)
  (hconfig : a.config = s.options.config) (hpattern : a.pattern = s.options.pattern)
include hpath hconfig hpattern

/-- an audit lets pass what a scan lets pass -/
theorem exitCode_runAudit_eq_zero (ht : t.IsSound) (hroot : t.pathExists s.path)
    (hok : ¬ a.MeetsError t period) (hzero : (runScan t s).exitCode = 0) :
    (runAudit t a period).exitCode = 0 := by
  have hnoerror : ¬ (s.MeetsError t ∧ (runScan t s).exitCode = 2) := by
    rintro ⟨-, htwo⟩
    exact absurd (hzero.symm.trans htwo) (by decide)
  obtain ⟨-, files, ⟨config', hload', hfiles⟩, hscanned⟩ :=
    (exitCode_runScan hroot).resolve_left hnoerror
  have hlight : weigh 4 (scanFiles t files).allFindings < 10 := by
    by_contra hheavy
    rw [hzero, if_neg hheavy] at hscanned
    exact absurd hscanned (by decide)
  have hroot' : t.pathExists a.path := by rwa [hpath]
  obtain ⟨-, level, config, file, -, hload, -, hcode⟩ :=
    (exitCode_runAudit hroot' period).resolve_left fun h => hok h.1
  rw [hpath, hconfig] at hload
  obtain rfl := Except.ok.inj (hload.symm.trans hload')
  have hweight : weigh 3 (auditWith t a.path (a.options level) config period).findings ≤
      weigh 4 (scanFiles t files).allFindings := by
    unfold auditWith AuditRequest.options
    rw [hpath, hpattern]
    exact weigh_audit_le_scan ht hfiles _ period
  rw [hcode, auditWith, auditExitCode_comprehensiveAudit]
  apply if_neg
  rintro ⟨-, hheavy⟩
  have hle : 25 ≤ _ := hheavy.trans hweight
  omega

end

end

/-- **What a scan lets pass an audit lets pass as well.**  A path that does not exist ends both
commands with 1.  Otherwise a command ends with 2 exactly if it meets an error.  If it does not, a
scan ends with 0 if its findings weigh less than 10, which no CRITICAL finding does, and with 1
else; its findings are those that its report counts, and also those that it lists, at least where
the paths are texts.  An audit ends with 1 if it was completed and its findings weigh at least 25,
and with 0 else.  What makes a scan end with 2 on its way to the contracts makes an audit fail, and
a failed audit ends with 0. -/
theorem exit_codes {t : FileTree} (ht : t.IsSound) (s : ScanRequest) (a : AuditRequest)
    (hpath : a.path = s.path) (hconfig : a.config = s.options.config)
    (hpattern : a.pattern = s.options.pattern) (period : AuditPeriod) :
    let scanned := (runScan t s).exitCode
    let audited := (runAudit t a period).exitCode
    (¬ t.pathExists s.path → scanned = 1 ∧ audited = 1) ∧
    (t.pathExists s.path →
      (scanned = 2 ↔ s.MeetsError t) ∧ (audited = 2 ↔ a.MeetsError t period) ∧
      (¬ s.MeetsError t → ∃ files, s.LooksAt t files ∧
        scan t s.path s.options = .ok (.ofFiles t files) ∧
        let report := (ScanOutput.ofFiles t files).report
        let found := (scanFiles t files).allFindings
        (∀ v, report.summary.severityBreakdown.get v = found.countP (·.severity == v)) ∧
        ((∀ x ∈ (scanFiles t files).files, x.1.raw.IsUtf8) → report.findings.Perm found) ∧
        scanned = (if weigh 4 found < 10 then 0 else 1) ∧
        ((∃ f ∈ found, f.severity = .critical) → scanned = 1)) ∧
      (¬ a.MeetsError t period → ∃ level saved, a.readLevel = .ok level ∧
        (auditAndSave t a.path (a.options level) period).2 = .ok saved ∧
        audited = (if saved.report.status = .completed ∧ 25 ≤ weigh 3 saved.report.findings then 1
          else 0) ∧
        (saved.report.status = .failed → saved.report.risk.riskLevel = .unknown ∧ audited = 0) ∧
        ∀ config, Config.loadFor t a.path a.config = .ok config →
          (t.StopsAudit a.path (a.pattern.getD config.pattern) → saved.report.status = .failed)) ∧
      (¬ a.MeetsError t period → scanned = 0 → audited = 0)) := by
  intro scanned audited
  refine ⟨fun hroot => ?_, fun hroot => ?_⟩
  · have hroot' : ¬ t.pathExists a.path := by rwa [hpath]
    simp only [scanned, audited, runScan, runAudit]
    rw [if_pos (by simpa using hroot), if_pos (by simpa using hroot')]
    exact ⟨rfl, rfl⟩
  · have hroot' : t.pathExists a.path := by rwa [hpath]
    refine ⟨exitCode_runScan_eq_two_iff hroot, exitCode_runAudit_eq_two_iff hroot' period,
      fun hok => ?_, fun hok => ?_,
      exitCode_runAudit_eq_zero hpath hconfig hpattern ht hroot⟩
    · obtain ⟨-, files, hlooks, hcode⟩ := (exitCode_runScan hroot).resolve_left fun h => hok h.1
      refine ⟨files, hlooks, hlooks.scan_eq, SeverityCounts.get_ofFindings _,
        ScanReport.findings_ofResults (increases_scanFiles t files), hcode,
        fun hcritical => hcode.trans (if_neg ?_)⟩
      exact Nat.not_lt.2 (ten_le_weigh_of_critical hcritical)
    · obtain ⟨-, level, config, file, hlevel, hload, hsave, hcode⟩ :=
        (exitCode_runAudit hroot' period).resolve_left fun h => hok h.1
      refine ⟨level, _, hlevel, hsave, hcode.trans (auditExitCode_comprehensiveAudit ..), ?_, ?_⟩
      · intro hfailed
        have hunknown := riskLevel_of_failed hfailed
        exact ⟨hunknown, hcode.trans (congrArg auditExitCode hunknown)⟩
      · intro config' hload' hstop
        obtain rfl := Except.ok.inj (hload.symm.trans hload')
        obtain ⟨e, h⟩ := isFailed_of_stopsAudit _ period hstop
        exact h.status

/-- a file that cannot be read, with a pattern that is none: the scan does not ask for the pattern,
and the audit fails -/
theorem exit_codes_of_failed_audit :
    let t : FileTree := ⟨[(["a"], .lockedFile), (["d"], .directory)], []⟩
    let s : ScanRequest := ⟨⟨"a"⟩, ⟨some ⟨"c"⟩, some "["⟩, "json", none, false⟩
    let a : AuditRequest := ⟨⟨"a"⟩, some ⟨"c"⟩, none, some "[", some ⟨"d"⟩⟩
    let period : AuditPeriod := ⟨⟨1709208000, 0⟩, ⟨1709208060, 0⟩⟩
    t.IsSound ∧ t.pathExists s.path ∧ ¬ s.MeetsError t ∧ ¬ a.MeetsError t period ∧
    (runScan t s).exitCode = 0 ∧ (runAudit t a period).exitCode = 0 ∧
    ∃ saved, (auditAndSave t a.path (a.options none) period).2 = .ok saved ∧
      saved.report.status = .failed ∧ saved.report.risk.riskLevel = .unknown := by
  intro t s a period
  have ht : t.IsSound := by decide
  have hroot : t.pathExists s.path := by cbv
  have hload : Config.loadFor t s.path (some ⟨"c"⟩) = .ok .default := loadFor_of_missing (by cbv)
  obtain ⟨-, hexist⟩ := exit_codes ht s a rfl rfl rfl period
  obtain ⟨-, haudited, hscanned, hsaved, hboth⟩ := hexist hroot
  -- the scan finds nothing in the file
  have hfiles (pattern : String) : scannedFiles t s.path pattern = .ok [s.path] := by
    have hfile : t.isFile s.path := by cbv
    unfold scannedFiles
    rw [if_pos hfile]
  have hnothing : (scanFiles t [s.path]).allFindings = [] := by
    have hread : t.readText s.path = .error .notAllowed := by cbv
    have hempty : scanFiles t [s.path] = .empty := by
      show addScanned t .empty s.path = .empty
      rw [addScanned_eq, if_pos (scanFile_of_error hread)]
    rw [hempty]
    rfl
  have hscan : ¬ s.MeetsError t := by
    have hlooks : s.LooksAt t [s.path] := ⟨.default, hload, hfiles _⟩
    rw [meetsError_iff_of_scan hroot hlooks.scan_eq]
    rintro ⟨file, e, houtput, -⟩
    cases houtput
  have hzero : (runScan t s).exitCode = 0 := by
    obtain ⟨files, ⟨config, -, hfiles'⟩, -, -, -, hcode, -⟩ := hscanned hscan
    obtain rfl := Except.ok.inj ((hfiles _).symm.trans hfiles')
    rw [hcode, hnothing]
    rfl
  -- the report of the audit is kept
  have haudit : ¬ a.MeetsError t period := by
    have hid := (comprehensiveAudit_heading Config.default.level period t a.path "[").1.1
    have hstamp : period.start.stamp.utf8ByteSize ≤ 224 := by decide +kernel
    have hmade : t.makeDirectories ⟨"d"⟩ = (t, none) := by cbv
    have habove : t.locate .followed ⟨"d"⟩ = .ok ["d"] := by cbv
    obtain ⟨-, hsave⟩ :=
      AuditReport.save_of_auditId hid hmade habove rfl rfl rfl hstamp (by decide)
    exact not_meetsError_of_save rfl hload (congrArg Prod.snd hsave)
  obtain ⟨level, saved, hlevel, hsave, -, hfailed, hstop⟩ := hsaved haudit
  obtain rfl : none = level := Except.ok.inj hlevel
  have hparse : Glob.parse "[" = .error ⟨0, .invalidRange⟩ := by cbv
  have hstatus := hstop .default hload (.inl ⟨_, hparse⟩)
  exact ⟨ht, hroot, hscan, haudit, hzero, hboth haudit hzero, saved, hsave, hstatus,
    (hfailed hstatus).1⟩

end ContractAudit
