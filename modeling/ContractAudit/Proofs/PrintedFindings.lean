import Mathlib.Data.List.SplitBy
import ContractAudit.Proofs.Numerals
import ContractAudit.Proofs.RuleFindings
import ContractAudit.Proofs.ScanReports
import ContractAudit.Proofs.Statistics
import ContractAudit.Report.Console
import ContractAudit.Report.Plain

/-!
# Findings in printed reports

The report of an audit gathers its findings severity by severity, which sorts them, and the summary
on the console takes its counts from the assessment of the risk.  A scan that is shown there
announces a number, lists findings and breaks them down by severity, each from another part of its
report.  In both cases all of this is about the same findings.

* `severitiesOf fs`, `withSeverity fs v`: the severities that occur, and the findings of each.
* `bySeverity fs`: the findings sorted by severity.
* `eq_of_withSeverity_eq`: sorted findings are determined by those of each severity.
* `splitBy_bySeverity`: sorted findings, cut where the severity changes.
* `Plain.exists_audit_eq`, `Console.exists_auditSummary_eq`: where findings stand in a text.
* `ScanReport.exists_files`, `Console.findings_files`: the files of a scan as its report has them.
* `Console.saysNone_iff`: when a report says that there are no findings.

The main statements are `grouped_findings` and `shown_findings`.
-/

namespace ContractAudit

/-- the severities that occur among findings, the most severe first -/
def severitiesOf (fs : List Finding) : List Severity :=
  Severity.descending.filter fun v => ∃ f ∈ fs, f.severity = v

/-- the findings of one severity, in the order in which they come -/
def withSeverity (fs : List Finding) (v : Severity) : List Finding := fs.filter (·.severity == v)

/-- the first finding is at least as severe as the second one -/
def Finding.isAtLeast (f g : Finding) : Bool := g.severity ≤ f.severity

/-- the most severe findings first, and those of one severity in the order in which they come -/
def bySeverity (fs : List Finding) : List Finding := fs.mergeSort Finding.isAtLeast

/-! ## severities that occur -/

namespace Severity

theorem mem_descending (v : Severity) : v ∈ descending := by
  cases v <;> decide

theorem descending_decreases : descending.Pairwise fun v w => w < v := by decide

theorem eq_of_le_of_le {v w : Severity} (hvw : v ≤ w) (hwv : w ≤ v) : v = w := by
  revert hvw hwv
  cases v <;> cases w <;> decide

theorem ne_of_lt {v w : Severity} (h : w < v) : v ≠ w := fun heq =>
  Nat.ne_of_gt h (congrArg rank heq)

end Severity

section
variable {f : Finding} {fs fs' : List Finding} {v : Severity}

theorem withSeverity_cons : withSeverity (f :: fs) v =
    if f.severity = v then f :: withSeverity fs v else withSeverity fs v := by
  simp [withSeverity, List.filter_cons]

theorem mem_withSeverity : f ∈ withSeverity fs v ↔ f ∈ fs ∧ f.severity = v := by
  rw [withSeverity, List.mem_filter, beq_iff_eq]

theorem mem_severitiesOf : v ∈ severitiesOf fs ↔ ∃ f ∈ fs, f.severity = v := by
  rw [severitiesOf, List.mem_filter, decide_eq_true_iff, and_iff_right v.mem_descending]

theorem withSeverity_ne_nil_iff : withSeverity fs v ≠ [] ↔ v ∈ severitiesOf fs := by
  simp only [ne_eq, List.eq_nil_iff_forall_not_mem, mem_withSeverity, mem_severitiesOf]
  push Not
  rfl

theorem severitiesOf_decreases (fs : List Finding) :
    (severitiesOf fs).Pairwise fun v w => w < v :=
  Severity.descending_decreases.filter _

theorem length_withSeverity (fs : List Finding) (v : Severity) :
    (withSeverity fs v).length = (SeverityCounts.ofFindings fs).get v := by
  rw [SeverityCounts.get_ofFindings, withSeverity, ← List.countP_eq_length_filter]

theorem severitiesOf_eq (fs : List Finding) : severitiesOf fs =
    Severity.descending.filter fun v => 0 < (SeverityCounts.ofFindings fs).get v := by
  refine List.filter_congr fun v _ => decide_eq_decide.2 ?_
  rw [← mem_severitiesOf, ← withSeverity_ne_nil_iff, ← length_withSeverity, List.length_pos_iff]

/-! ## sorted findings -/

theorem Finding.isAtLeast_trans (f g h : Finding) (hfg : f.isAtLeast g) (hgh : g.isAtLeast h) :
    f.isAtLeast h :=
  decide_eq_true (Nat.le_trans (of_decide_eq_true hgh) (of_decide_eq_true hfg))

theorem Finding.isAtLeast_total (f g : Finding) : f.isAtLeast g || g.isAtLeast f := by
  simp only [isAtLeast, Bool.or_eq_true, decide_eq_true_eq]
  exact Nat.le_total g.severity.rank f.severity.rank

theorem withSeverity_bySeverity (fs : List Finding) (v : Severity) :
    withSeverity (bySeverity fs) v = withSeverity fs v := by
  refine filter_mergeSort Finding.isAtLeast_trans Finding.isAtLeast_total (fun f g hf hg => ?_) fs
  refine decide_eq_true (Nat.le_of_eq ?_)
  rw [beq_iff_eq.1 hf, beq_iff_eq.1 hg]

theorem bySeverity_sorted (fs : List Finding) :
    (bySeverity fs).Pairwise fun f g => g.severity ≤ f.severity :=
  (List.pairwise_mergeSort Finding.isAtLeast_trans Finding.isAtLeast_total fs).imp
    of_decide_eq_true

theorem mem_iff_of_withSeverity_eq (h : ∀ v, withSeverity fs v = withSeverity fs' v) :
    f ∈ fs ↔ f ∈ fs' := by
  have hf : f ∈ withSeverity fs f.severity ↔ f ∈ withSeverity fs' f.severity := by
    rw [h]
  rwa [mem_withSeverity, mem_withSeverity, and_iff_left rfl, and_iff_left rfl] at hf

/-- sorted findings are determined by those of each severity -/
theorem eq_of_withSeverity_eq (hfs : fs.Pairwise fun f g => g.severity ≤ f.severity)
    (hfs' : fs'.Pairwise fun f g => g.severity ≤ f.severity)
    (h : ∀ v, withSeverity fs v = withSeverity fs' v) : fs = fs' := by
  have hmem {f : Finding} : f ∈ fs ↔ f ∈ fs' := mem_iff_of_withSeverity_eq h
  induction fs generalizing fs' with
  | nil => exact (List.eq_nil_iff_forall_not_mem.2 fun f => mt hmem.2 List.not_mem_nil).symm
  | cons f fs ih =>
    cases fs' with
    | nil => exact absurd (hmem.1 List.mem_cons_self) List.not_mem_nil
    | cons g fs' =>
      obtain ⟨hf, htail⟩ := List.pairwise_cons.1 hfs
      obtain ⟨hg, htail'⟩ := List.pairwise_cons.1 hfs'
      -- each of the first two is somewhere in the other list, so they are equally severe
      have hseverity : f.severity = g.severity := by
        rcases List.mem_cons.1 (hmem.2 List.mem_cons_self) with rfl | hle
        · rfl
        rcases List.mem_cons.1 (hmem.1 List.mem_cons_self) with rfl | hge
        · rfl
        exact Severity.eq_of_le_of_le (hg f hge) (hf g hle)
      have hfirst := h f.severity
      rw [withSeverity_cons, withSeverity_cons, if_pos rfl, if_pos hseverity.symm] at hfirst
      obtain rfl := (List.cons.inj hfirst).1
      have hrest (v : Severity) : withSeverity fs v = withSeverity fs' v := by
        have hv := h v
        rw [withSeverity_cons, withSeverity_cons] at hv
        split_ifs at hv
        · exact (List.cons.inj hv).2
        · exact hv
      rw [ih htail htail' hrest (mem_iff_of_withSeverity_eq hrest)]

/-- the findings of one severity after the other are sorted -/
theorem bySeverity_eq_flatMap (fs : List Finding) :
    bySeverity fs = (severitiesOf fs).flatMap (withSeverity fs) := by
  refine eq_of_withSeverity_eq (bySeverity_sorted fs) ?_ fun v => ?_
  · refine List.pairwise_flatMap.2 ⟨fun v _ => ?_, (severitiesOf_decreases fs).imp ?_⟩
    · refine List.pairwise_of_forall_mem_list fun f hf g hg => Nat.le_of_eq ?_
      rw [(mem_withSeverity.1 hf).2, (mem_withSeverity.1 hg).2]
    · intro v w hwv f hf g hg
      rw [(mem_withSeverity.1 hf).2, (mem_withSeverity.1 hg).2]
      exact Nat.le_of_lt hwv
  rw [withSeverity_bySeverity]
  by_cases hv : v ∈ severitiesOf fs
  · have hnodup : ((severitiesOf fs).map id).Nodup := by
      rw [List.map_id]
      exact (severitiesOf_decreases fs).imp Severity.ne_of_lt
    have hpart : ((severitiesOf fs).flatMap (withSeverity fs)).filter (·.severity == v) =
        (withSeverity fs v).filter (·.severity == v) := by
      refine filter_flatMap_of_key id hnodup hv fun w _ f hf hfv => ?_
      rw [id, id, ← (mem_withSeverity.1 hf).2, beq_iff_eq.1 hfv]
    rw [withSeverity, withSeverity, hpart, withSeverity, List.filter_filter]
    simp only [Bool.and_self]
  · rw [not_not.1 (mt withSeverity_ne_nil_iff.1 hv), eq_comm, List.eq_nil_iff_forall_not_mem]
    intro f hf
    obtain ⟨hmem, rfl⟩ := mem_withSeverity.1 hf
    obtain ⟨w, hw, hmem⟩ := List.mem_flatMap.1 hmem
    rw [(mem_withSeverity.1 hmem).2] at hv
    exact hv hw

/-- where the severity changes in sorted findings, the next group begins -/
theorem splitBy_bySeverity (fs : List Finding) :
    (bySeverity fs).splitBy (fun f g => f.severity == g.severity) =
      (severitiesOf fs).map (withSeverity fs) := by
  rw [List.splitBy_eq_iff, bySeverity_eq_flatMap, List.flatMap_def]
  refine ⟨rfl, fun hnil => ?_, fun gs hgs => ?_, ?_⟩
  · obtain ⟨v, hv, hempty⟩ := List.mem_map.1 hnil
    exact withSeverity_ne_nil_iff.2 hv hempty
  · obtain ⟨v, -, rfl⟩ := List.mem_map.1 hgs
    refine (List.pairwise_of_forall_mem_list fun f hf g hg => ?_).isChain
    rw [(mem_withSeverity.1 hf).2, (mem_withSeverity.1 hg).2]
    exact beq_self_eq_true v
  · refine (List.pairwise_map.2 ((severitiesOf_decreases fs).imp_of_mem ?_)).isChain
    intro v w hv hw hwv
    have hv := withSeverity_ne_nil_iff.2 hv
    have hw := withSeverity_ne_nil_iff.2 hw
    refine ⟨hv, hw, ?_⟩
    rw [(mem_withSeverity.1 (List.getLast_mem hv)).2, (mem_withSeverity.1 (List.head_mem hw)).2]
    exact beq_eq_false_iff_ne.2 (Severity.ne_of_lt hwv)

theorem sum_withSeverity (fs : List Finding) :
    ((severitiesOf fs).map fun v => (withSeverity fs v).length).sum = fs.length := by
  rw [← List.length_flatMap, ← bySeverity_eq_flatMap, bySeverity, List.length_mergeSort]

end

/-! ## audits -/

namespace Plain

theorem findingGroups_eq (fs : List Finding) :
    findingGroups fs = (severitiesOf fs).map fun v => (v, withSeverity fs v) := by
  rw [findingGroups, severitiesOf, List.filter_map]
  refine congrArg _ (List.filter_congr fun v _ => ?_)
  rw [Bool.eq_iff_iff, decide_eq_true_iff, ← mem_severitiesOf, ← withSeverity_ne_nil_iff]
  simp [withSeverity]

theorem findings_eq (fs : List Finding) : findings fs =
    if fs = [] then "" else
      "SECURITY FINDINGS\n------------------------------\n" ++
      String.join ((severitiesOf fs).map fun v =>
        "\n" ++ v.name ++ " SEVERITY (" ++ toString (withSeverity fs v).length ++
          " findings):\n" ++ String.join ((withSeverity fs v).map fun f =>
            "  - " ++ f.title ++ " (Line " ++ toString f.lineNumber ++ ")\n" ++
              "    " ++ f.description ++ "\n" ++
              "    Recommendation: " ++ f.recommendation ++ "\n\n")) ++ "\n" := by
  rw [findings, findingGroups_eq, List.map_map]
  simp only [List.isEmpty_iff]
  rfl

/-- the findings stand in one place of the text -/
theorem exists_audit_eq (r : AuditReport) : ∃ before after, ∀ fs,
    audit { r with findings := fs } = before ++ findings fs ++ after := by
  refine ⟨header r, r.metrics.elim "" metrics ++ risk r.risk ++
    recommendations r.recommendations ++ footer r, fun fs => ?_⟩
  simp only [audit, String.append_assoc]
  cases r.metrics <;> rfl

end Plain

namespace Console

theorem severityLines_ofFindings (fs : List Finding) :
    severityLines (.ofFindings fs) = String.join ((severitiesOf fs).map fun v =>
      line ("  " ++ v.name ++ ": " ++ toString (withSeverity fs v).length)) := by
  rw [severityLines, severitiesOf_eq]
  refine congrArg String.join (List.map_congr_left fun v _ => ?_)
  rw [length_withSeverity]

/-- the number of findings and their severities stand in one place of the text -/
theorem exists_auditSummary_eq (r : AuditReport) (savedTo : Path) : ∃ before after, ∀ fs,
    auditSummary { r with findings := fs } savedTo = before ++
      (if fs = [] then "" else
        line ("Total Findings: " ++ toString fs.length) ++
          severityLines r.risk.severityBreakdown) ++ after := by
  simp only [auditSummary, List.isEmpty_iff]
  exact ⟨_, _, fun _ => String.append_assoc⟩

end Console

/-- **The findings of an audit in groups.**  The report for readers has one section more than it
would have without findings, and none more if there are none.  There its findings are sorted by
severity and cut where the severity changes, so that each severity that occurs has one group, headed
by its name and the number of its findings, in the order in which the report has them, and the
groups come to all findings.  If the risk is assessed by the same findings, the summary on the
console has a line for each of these groups with the same number. -/
theorem grouped_findings (r : AuditReport) :
    let fs := r.findings
    (bySeverity fs).splitBy (fun f g => f.severity == g.severity) =
      (severitiesOf fs).map (withSeverity fs) ∧
    ((severitiesOf fs).map fun v => (withSeverity fs v).length).sum = fs.length ∧
    (∃ before after, Plain.audit { r with findings := [] } = before ++ after ∧
      Plain.audit r = before ++
        (if fs = [] then "" else
          "SECURITY FINDINGS\n------------------------------\n" ++
          String.join ((severitiesOf fs).map fun v =>
            "\n" ++ v.name ++ " SEVERITY (" ++ toString (withSeverity fs v).length ++
              " findings):\n" ++ String.join ((withSeverity fs v).map fun f =>
                "  - " ++ f.title ++ " (Line " ++ toString f.lineNumber ++ ")\n" ++
                  "    " ++ f.description ++ "\n" ++
                  "    Recommendation: " ++ f.recommendation ++ "\n\n")) ++ "\n") ++
        after) ∧
    ∀ (m : AuditMetrics Float) (savedTo : Path), r.risk = .ofFindings fs m →
      ∃ before after,
        Console.auditSummary { r with findings := [] } savedTo = before ++ after ∧
        Console.auditSummary r savedTo = before ++
          (if fs = [] then "" else
            "  Total Findings: " ++ toString fs.length ++ "\n" ++
            String.join ((severitiesOf fs).map fun v =>
              "    " ++ v.name ++ ": " ++ toString (withSeverity fs v).length ++ "\n")) ++
          after := by
  intro fs
  refine ⟨splitBy_bySeverity fs, sum_withSeverity fs, ?_, fun m savedTo hrisk => ?_⟩
  · obtain ⟨before, after, htext⟩ := Plain.exists_audit_eq r
    refine ⟨before, after, ?_, ?_⟩
    · rw [htext, Plain.findings_eq, if_pos rfl, String.append_empty]
    · rw [← Plain.findings_eq]
      exact htext fs
  · obtain ⟨before, after, htext⟩ := Console.exists_auditSummary_eq r savedTo
    have hcounts : r.risk.severityBreakdown = .ofFindings fs :=
      congrArg RiskAssessment.severityBreakdown hrisk
    -- a line is set in by two spaces
    have htotal : "  Total Findings: " ++ toString fs.length ++ "\n" =
        Console.line ("Total Findings: " ++ toString fs.length) := by
      have hstart : "  Total Findings: " = "  " ++ "Total Findings: " := by decide
      simp only [hstart, Console.line, String.append_assoc]
    have hline (v : Severity) : "    " ++ v.name ++ ": " ++ toString (withSeverity fs v).length ++
        "\n" = Console.line ("  " ++ v.name ++ ": " ++ toString (withSeverity fs v).length) := by
      have hstart : "    " = "  " ++ "  " := by decide
      simp only [hstart, Console.line, String.append_assoc]
    refine ⟨before, after, ?_, ?_⟩
    · rw [htext, if_pos rfl, String.append_empty]
    · simp only [htotal, hline]
      rw [← Console.severityLines_ofFindings, ← hcounts]
      exact htext fs

/-- two findings of one severity around one of another -/
theorem grouped_findings_of_two_severities :
    let about (v : Severity) : RuleInfo := ⟨"OMEGA-001", "Reentrancy", "", v, "", []⟩
    let found (v : Severity) (n : Nat) := Finding.ofLine (about v) n "external_call(target);".toList
    let fs := [found .medium 1, found .critical 2, found .medium 3]
    let m : AuditMetrics Float := ⟨3, 10.0, 65.0, 95.0, 80.0, 0.0⟩
    let r := { AuditReport.pending "AUDIT-1" "vault" .standard ⟨0, 0⟩ with
      findings := fs, metrics := some m, risk := .ofFindings fs m }
    r.risk = .ofFindings r.findings m ∧
    (bySeverity r.findings).map (·.lineNumber) = [2, 1, 3] ∧
    ∃ before after, Console.auditSummary r ⟨"r.json"⟩ = before ++
      "  Total Findings: 3\n    CRITICAL: 1\n    MEDIUM: 2\n" ++ after := by
  intro about found fs m r
  have hrisk : r.risk = .ofFindings r.findings m := rfl
  obtain ⟨-, -, -, hsummary⟩ := grouped_findings r
  obtain ⟨before, after, -, htext⟩ := hsummary m ⟨"r.json"⟩ hrisk
  refine ⟨hrisk, ?_, before, after, ?_⟩
  · rw [bySeverity_eq_flatMap]
    decide
  · have hlines : "  Total Findings: " ++ toString r.findings.length ++ "\n" ++
        String.join ((severitiesOf r.findings).map fun v =>
          "    " ++ v.name ++ ": " ++ toString (withSeverity r.findings v).length ++ "\n") =
        "  Total Findings: 3\n    CRITICAL: 1\n    MEDIUM: 2\n" := by
      decide
    rw [htext, if_neg (List.cons_ne_nil _ _), hlines]

/-! ## scans -/

namespace ScanReport

/-- the files of the results in the order of the bytes of their texts -/
theorem exists_files {r : ScanResults} (hr : Ordered.Increases r.files)
    (hutf8 : ∀ x ∈ r.files, x.1.raw.IsUtf8) :
    ∃ files : List (Path × List Finding), files.Perm r.files ∧
      (files.Pairwise fun x y => utf8Bytes x.1.text < utf8Bytes y.1.text) ∧
      (ofResults r).detailedFindings = files.map fun x => (x.1.text, x.2) := by
  let file (x : String × List Finding) : Path × List Finding := (.mk x.1, x.2)
  have hfile : r.files.map (fun x => file (x.1.text, x.2)) = r.files := by
    have hsame : ∀ x ∈ r.files, file (x.1.text, x.2) = id x :=
      fun x hx => Prod.ext (Path.mk_text (hutf8 x hx)) rfl
    rw [List.map_congr_left hsame, List.map_id]
  have htext (x : String × List Finding) : (file x).1.text = x.1 := Path.text_mk x.1
  refine ⟨(ofResults r).detailedFindings.map file, ?_, ?_, ?_⟩
  · have hperm := (detailedFindings_perm hr hutf8).map file
    rwa [List.map_map, Function.comp_def, hfile] at hperm
  · simp only [List.pairwise_map, htext]
    exact detailedFindings_increase r
  · simp only [List.map_map, Function.comp_def, htext]
    exact (List.map_id _).symm

end ScanReport

namespace Console

/-- the findings of all files, one entry after the other -/
theorem findings_files (files : List (Path × List Finding)) :
    findings (files.map fun x => (x.1.text, x.2)) =
      String.join ((files.flatMap fun x => x.2.map fun f => (x.1, f)).map fun x =>
        finding x.1.text x.2) := by
  rw [findings, List.flatMap_map, List.map_flatMap]
  simp only [List.map_map]
  rfl

theorem scan_of_none {r : ScanReport} (h : r.summary.totalVulnerabilities = 0) :
    ∃ rest, scan r = "\n  No security findings detected.\n" ++ rest := by
  have hline : "\n" ++ line "No security findings detected." =
      "\n  No security findings detected.\n" := by decide
  rw [scan, if_pos h, hline]
  simp only [String.append_assoc]
  exact ⟨_, rfl⟩

theorem scan_of_some {r : ScanReport} (h : r.summary.totalVulnerabilities ≠ 0) :
    ∃ rest, scan r = "\n  " ++ toString r.summary.totalVulnerabilities ++ rest := by
  have hline : "\n" ++ "  " = "\n  " := by decide
  rw [scan, if_neg h, line, ← hline]
  simp only [String.append_assoc]
  exact ⟨_, rfl⟩

/-- where findings are announced, their number stands first -/
theorem saysNone_iff (r : ScanReport) :
    "\n  No security findings detected.\n".toList <+: (scan r).toList ↔
      r.summary.totalVulnerabilities = 0 := by
  constructor
  · intro hprefix
    by_contra htotal
    obtain ⟨rest, htext⟩ := scan_of_some htotal
    obtain ⟨c, ds, hdigits, -⟩ := Text.toDigits_eq_cons htotal
    have hdigit : Text.isDigit c :=
      Text.allDigits_toDigits r.summary.totalVulnerabilities c (hdigits ▸ List.mem_cons_self)
    rw [htext, String.toList_append, String.toList_append, Nat.toString_eq_repr,
      Nat.toList_repr, hdigits] at hprefix
    have hfirst : 'N' = c := (by simpa using hprefix : 'N' = c ∧ _).1
    rw [← hfirst] at hdigit
    exact absurd hdigit (by decide)
  · intro hnone
    obtain ⟨rest, htext⟩ := scan_of_none hnone
    rw [htext, String.toList_append]
    exact List.prefix_append _ _

end Console

/-- **What a scan shows.**  The files of a scan, whose paths are texts, are shown in the order of
the bytes of their paths, and their findings as they are listed: one entry for each finding, with
its own file and line.  As many are announced, as many are said to be found, and as many there are
in the severities together, of which those that occur have a line each, the most severe first.  The
report says that there are no findings, without an entry or a line of a severity, if and only if
there are none. -/
theorem shown_findings {r : ScanResults} (hr : Ordered.Increases r.files)
    (hutf8 : ∀ x ∈ r.files, x.1.raw.IsUtf8) :
    let report := ScanReport.ofResults r
    let found := r.files.flatMap (·.2)
    ∃ files : List (Path × List Finding),
      files.Perm r.files ∧
      (files.Pairwise fun x y => utf8Bytes x.1.text < utf8Bytes y.1.text) ∧
      let entries := files.flatMap fun x => x.2.map fun f => (x.1, f)
      entries.length = found.length ∧
      ((severitiesOf found).map fun v => (withSeverity found v).length).sum = found.length ∧
      Console.scan report =
        (if found = [] then "\n" ++ Console.line "No security findings detected." ++ "\n"
          else "\n" ++ Console.line (toString found.length ++ " finding(s) detected:") ++ "\n" ++
            String.join (entries.map fun (p, f) =>
              Console.line (Console.severityTag f.severity ++ " " ++ f.ruleId ++ " " ++ f.title) ++
              Console.line ("         at " ++ p.text ++ ":" ++ toString f.lineNumber) ++
              Console.line ("         code: " ++ f.snippet) ++
              Console.line ("         fix: " ++ f.recommendation) ++ "\n")) ++
        Console.line "Security Scan Summary:" ++
        Console.line ("Files with findings: " ++ toString r.files.length) ++
        Console.line ("Vulnerabilities found: " ++ toString found.length) ++
        Console.line ("Risk level: " ++ report.summary.riskLevel.name) ++
        Console.line ("Risk score: " ++ toString report.summary.riskScore) ++
        (if found = [] then ""
          else "\n" ++ Console.line "Severity breakdown:" ++
            String.join ((severitiesOf found).map fun v =>
              Console.line ("  " ++ v.name ++ ": " ++ toString (withSeverity found v).length))) ++
        "\n" ++ Console.line "Recommendations:" ++
        String.join (report.recommendations.map fun a => Console.line ("  " ++ a)) ++ "\n" ∧
      ("\n  No security findings detected.\n".toList <+: (Console.scan report).toList ↔
        found = []) := by
  intro report found
  obtain ⟨files, hperm, hsorted, hfiles⟩ := ScanReport.exists_files hr hutf8
  have htotal : report.summary.totalVulnerabilities = found.length :=
    SeverityCounts.total_ofFindings found
  have hnone : found.length = 0 ↔ found = [] := List.length_eq_zero_iff
  refine ⟨files, hperm, hsorted, ?_, sum_withSeverity found, ?_, ?_⟩
  · rw [List.length_flatMap]
    simp only [List.length_map]
    rw [(hperm.map _).sum_nat, ← List.length_flatMap]
  · rw [Console.scan, htotal, hfiles, Console.findings_files, ← Console.severityLines_ofFindings]
    simp only [hnone, List.length_pos_iff, ite_not]
    rfl
  · rw [Console.saysNone_iff, htotal, hnone]

/-- two files with the first one shown last, after one without findings -/
theorem shown_findings_of_two_files :
    let about : RuleInfo := ⟨"OMEGA-001", "Reentrancy", "", .high, "", []⟩
    let found (n : Nat) := Finding.ofLine about n "external_call(target);".toList
    let r : ScanResults := ⟨[(⟨"a/b"⟩, [found 2, found 5]), (⟨"a-b"⟩, [])]⟩
    Ordered.Increases r.files ∧ (∀ x ∈ r.files, x.1.raw.IsUtf8) ∧
    ∃ files : List (Path × List Finding), files.Perm r.files ∧
      (files.Pairwise fun x y => utf8Bytes x.1.text < utf8Bytes y.1.text) ∧
      (files.flatMap fun x => x.2.map fun f => (x.1, f)).length = 2 ∧
      ¬ "\n  No security findings detected.\n".toList <+:
        (Console.scan (ScanReport.ofResults r)).toList := by
  intro about found r
  have hr : Ordered.Increases r.files := List.pairwise_pair.2 (by decide)
  have hutf8 : ∀ x ∈ r.files, x.1.raw.IsUtf8 := by decide
  obtain ⟨files, hperm, hsorted, hlength, -, -, hnone⟩ := shown_findings hr hutf8
  exact ⟨hr, hutf8, files, hperm, hsorted, hlength, fun h => List.cons_ne_nil _ _ (hnone.1 h)⟩

end ContractAudit
