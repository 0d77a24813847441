import ContractAudit.Proofs.JsonValues
import ContractAudit.Proofs.Records

/-!
# Reports are read back

* `AuditReport.read?_write_iff`, `ScanReport.read?_write_iff`: a report that is written is read back
  exactly if it can be kept and its floating-point numbers are read back.
* `AuditReport.of_read?`, `ScanReport.of_read?`: only such reports are read at all, and their
  floating-point numbers are finite.

The main statement is `stored_reports`.  It asks of each floating-point number in a report that it
is read back from its decimal, since that does not hold of all of them.
-/

namespace ContractAudit

open Json

namespace AuditReport

theorem read?_write_iff (r : AuditReport) :
    read? r.write = some r ↔ r.IsStorable ∧ ∀ x ∈ r.floats, ReadsBack x := by
  rw [read?, write, parse_pretty r.isPlain_toJson, Option.bind_some]
  exact ofJson?_toJson_iff

theorem of_read? {s : String} {r : AuditReport} (h : read? s = some r) :
    r.IsStorable ∧ ∀ x ∈ r.floats, x.isFinite := by
  obtain ⟨x, -, hx⟩ := Option.bind_eq_some_iff.1 h
  exact of_ofJson? hx

end AuditReport

namespace ScanReport

theorem read?_write_iff (r : ScanReport) :
    read? r.write = some r ↔ r.IsStorable ∧ ∀ x ∈ r.floats, ReadsBack x := by
  rw [read?, write, parse_pretty r.isPlain_toJson, Option.bind_some]
  exact ofJson?_toJson_iff

theorem of_read? {s : String} {r : ScanReport} (h : read? s = some r) :
    r.IsStorable ∧ ∀ x ∈ r.floats, x.isFinite := by
  obtain ⟨x, -, hx⟩ := Option.bind_eq_some_iff.1 h
  exact of_ofJson? hx

end ScanReport

/-- **Reports survive being kept.**  A report of an audit or of a scan is read back from its text
as it is, exactly if its counts, instants and maps can be kept and each of its floating-point
numbers is finite and read back from its decimal.  Whatever is read from a text can be kept, and
its floating-point numbers are finite; so if finite numbers are read back, it is read back again. -/
theorem stored_reports :
    (∀ r : AuditReport, AuditReport.read? r.write = some r ↔
      r.IsStorable ∧ ∀ x ∈ r.floats, x.isFinite ∧ ReadsBack x) ∧
    (∀ r : ScanReport, ScanReport.read? r.write = some r ↔
      r.IsStorable ∧ ∀ x ∈ r.floats, x.isFinite ∧ ReadsBack x) ∧
    (∀ (s : String) (r : AuditReport), AuditReport.read? s = some r →
      (r.IsStorable ∧ ∀ x ∈ r.floats, x.isFinite) ∧
        ((∀ x ∈ r.floats, x.isFinite → ReadsBack x) → AuditReport.read? r.write = some r)) ∧
    (∀ (s : String) (r : ScanReport), ScanReport.read? s = some r →
      (r.IsStorable ∧ ∀ x ∈ r.floats, x.isFinite) ∧
        ((∀ x ∈ r.floats, x.isFinite → ReadsBack x) → ScanReport.read? r.write = some r)) := by
  have hfinite (x : Float) : x.isFinite ∧ ReadsBack x ↔ ReadsBack x :=
    and_iff_right_of_imp ReadsBack.isFinite
  refine ⟨fun r => ?_, fun r => ?_, fun s r h => ?_, fun s r h => ?_⟩
  · simp only [hfinite]
    exact r.read?_write_iff
  · simp only [hfinite]
    exact r.read?_write_iff
  · obtain ⟨hstorable, hfloats⟩ := AuditReport.of_read? h
    exact ⟨⟨hstorable, hfloats⟩, fun hback =>
      r.read?_write_iff.2 ⟨hstorable, fun x hx => hback x hx (hfloats x hx)⟩⟩
  · obtain ⟨hstorable, hfloats⟩ := ScanReport.of_read? h
    exact ⟨⟨hstorable, hfloats⟩, fun hback =>
      r.read?_write_iff.2 ⟨hstorable, fun x hx => hback x hx (hfloats x hx)⟩⟩

/-- a report whose texts need escapes, and that starts in a leap second of the year 12024 -/
def leapSecondReport : AuditReport where
  auditId := "audit \"1\""
  projectName := "C:\\contracts\t\u00e9\u0001"
  level := .comprehensive
  status := .completed
  startTime := ⟨317295359999, 1500000000⟩
  endTime := some ⟨-62198755200, 1000⟩
  durationMinutes := some 0.8
  findings := [
    { ruleId := "SOL-001"
      title := "Reentrancy"
      description := ""
      severity := .critical
      lineNumber := 18446744073709551615
      snippet := "call\x7bvalue: x\x7d(\"\");"
      recommendation := "\n"
      references := ["", "\x7f"]
      confidence := 0.1
      automated := true
      needsReview := false }]
  metrics := none
  recommendations := []
  risk := ⟨.unknown, -9223372036854775808, ⟨1, 0, 0, 0, 0⟩, "", some .risky⟩
  auditorNotes := none
  nextAuditDate := none

theorem isStorable_leapSecondReport : leapSecondReport.IsStorable := by
  refine ⟨by decide, ?_, fun _ h => (nomatch h), ?_, fun _ h => (nomatch h), by decide, ?_⟩
  · rintro t ⟨⟩
    decide
  · exact List.forall_mem_singleton.2 (by decide)
  · exact SeverityCounts.isStorable_iff.2 (by decide)

theorem stored_reports_leap_second :
    AuditReport.read? leapSecondReport.write = some leapSecondReport := by
  exact (stored_reports.1 leapSecondReport).2 ⟨isStorable_leapSecondReport, by decide +kernel⟩

end ContractAudit
