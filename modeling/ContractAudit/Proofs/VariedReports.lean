import ContractAudit.Proofs.RecordShapes
import ContractAudit.Proofs.SavedReports

/-!
# Reports in other texts

A report is not only read from the text that is written for it.  White space, the order of members,
members of other names and optional members that are null make no difference; members that come
twice, needed members that are missing, and more text behind the report do.

* `AuditReport.shape`, `ScanReport.shape`, …: where records stand in a report.
* `AuditReport.readsShape_ofJson?`, …: the readers read these shapes.
* `IsVariedText s x text`: the text is one of `x` or of one of its variations.

The main statement is `varied_reports`.  As of the text that is written, it asks of the
floating-point numbers in a report that they are read back from their decimals.
-/

namespace ContractAudit

open Json

/-! ## shapes -/

namespace SeverityCounts

def shape : Shape := .struct (Severity.descending.map fun s => .needed s.name .leaf)

theorem readsShape_ofJson? : ReadsShape shape ofJson? :=
  readsShape_struct (by decide) <| .leaf fun _ => .leaf fun _ => .leaf fun _ => .leaf fun _ =>
    .leaf fun _ => readsFields_nil _

end SeverityCounts

namespace Finding

def shape : Shape := .struct (fieldNames.map fun k => .needed k .leaf)

theorem readsShape_ofJson? : ReadsShape shape ofJson? :=
  readsShape_struct (by decide) <| .leaf fun _ => .leaf fun _ => .leaf fun _ => .leaf fun _ =>
    .leaf fun _ => .leaf fun _ => .leaf fun _ => .leaf fun _ => .leaf fun _ => .leaf fun _ =>
    .leaf fun _ => readsFields_nil _

end Finding

namespace ScanSummary

def shape : Shape := .struct [
  .needed "total_files_scanned" .leaf,
  .needed "total_vulnerabilities" .leaf,
  .needed "severity_breakdown" SeverityCounts.shape,
  .needed "rule_breakdown" .leaf,
  .needed "risk_score" .leaf,
  .needed "risk_level" .leaf]

theorem readsShape_ofJson? : ReadsShape shape ofJson? :=
  readsShape_struct (by decide) <| .leaf fun _ => .leaf fun _ =>
    .needed SeverityCounts.readsShape_ofJson? fun _ => .leaf fun _ => .leaf fun _ => .leaf fun _ =>
    readsFields_nil _

end ScanSummary

namespace ScanReport

def shape : Shape := .struct [
  .needed "summary" ScanSummary.shape,
  .needed "recommendations" .leaf,
  .needed "detailed_findings" (.map (.list Finding.shape))]

theorem readsShape_ofJson? : ReadsShape shape ofJson? :=
  readsShape_struct (by decide) <| .needed ScanSummary.readsShape_ofJson? fun _ => .leaf fun _ =>
    .needed (readsShape_map (readsShape_list Finding.readsShape_ofJson?)) fun _ => readsFields_nil _

end ScanReport

namespace AuditMetrics

def shape : Shape := .struct (fieldNames.map fun k => .needed k .leaf)

theorem readsShape_ofJson? : ReadsShape shape ofJson? :=
  readsShape_struct (by decide) <| .leaf fun _ => .leaf fun _ => .leaf fun _ => .leaf fun _ =>
    .leaf fun _ => .leaf fun _ => readsFields_nil _

end AuditMetrics

namespace RiskAssessment

def shape : Shape := .struct [
  .needed "risk_level" .leaf,
  .needed "risk_score" .leaf,
  .needed "severity_breakdown" SeverityCounts.shape,
  .needed "recommendation" .leaf,
  .optional "deployment_recommendation" .leaf]

theorem readsShape_ofJson? : ReadsShape shape ofJson? :=
  readsShape_struct (by decide) <| .leaf fun _ => .leaf fun _ =>
    .needed SeverityCounts.readsShape_ofJson? fun _ => .leaf fun _ => .optionalLeaf fun _ =>
    readsFields_nil _

end RiskAssessment

namespace AuditReport

def shape : Shape := .struct [
  .needed "audit_id" .leaf,
  .needed "project_name" .leaf,
  .needed "audit_level" .leaf,
  .needed "status" .leaf,
  .needed "start_time" .leaf,
  .optional "end_time" .leaf,
  .optional "duration_minutes" .leaf,
  .needed "findings" (.list Finding.shape),
  .optional "metrics" AuditMetrics.shape,
  .needed "recommendations" .leaf,
  .needed "risk_assessment" RiskAssessment.shape,
  .optional "auditor_notes" .leaf,
  .optional "next_audit_date" .leaf]

theorem readsShape_ofJson? : ReadsShape shape ofJson? :=
  readsShape_struct (by decide) <| .leaf fun _ => .leaf fun _ => .leaf fun _ => .leaf fun _ =>
    .leaf fun _ => .optionalLeaf fun _ => .optionalLeaf fun _ =>
    .needed (readsShape_list Finding.readsShape_ofJson?) fun _ =>
    .optional AuditMetrics.readsShape_ofJson? fun _ => .leaf fun _ =>
    .needed RiskAssessment.readsShape_ofJson? fun _ => .optionalLeaf fun _ =>
    .optionalLeaf fun _ => readsFields_nil _

end AuditReport

/-! ## texts -/

/-- the text is one of the value or of one of its variations -/
def IsVariedText (s : Shape) (x : Json) (text : String) : Prop :=
  ∃ y, Varied s x y ∧ text.toList ∈ y.document

theorem isVariedText_pretty (s : Shape) {x : Json} (hx : x.IsPlain) : IsVariedText s x x.pretty :=
  ⟨x, .refl, pretty_mem_document hx⟩

section
variable {α : Type} {s : Shape} {read : Json → Option α} (h : ReadsShape s read)
include h

/-- what is read from the text that is written is read from all the others -/
theorem read_variedText {x : Json} (hx : x.IsPlain) {text : String} (htext : IsVariedText s x text)
    {a : α} (ha : (parse x.pretty).bind read = some a) : (parse text).bind read = some a := by
  obtain ⟨y, hy, htext⟩ := htext
  rw [parse_pretty hx] at ha
  rw [parse_of_mem_document htext]
  exact h.of_varied hy ha

theorem read_flaw {x : Json} {text : String} (htext : text.toList ∈ x.document) (hflaw : Flaw s x) :
    (parse text).bind read = none := by
  rw [parse_of_mem_document htext]
  exact h.flaw hflaw

end

/-- **Reports in other texts.**  A report that can be kept, and whose floating-point numbers are
read back from their decimals, is read from its own text and from every text that differs in white
space, in the order of the members of records, in members of other names, and in optional members
that are null; from all of these the same is read in any case.  Nothing is read where a member of a
record comes twice, or a needed one is missing, or where more than white space follows. -/
theorem varied_reports :
    (∀ r : AuditReport, IsVariedText AuditReport.shape r.toJson r.write ∧
      ∀ text, IsVariedText AuditReport.shape r.toJson text →
        (r.IsStorable → (∀ x ∈ r.floats, ReadsBack x) → AuditReport.read? text = some r) ∧
        ∀ r', AuditReport.read? r.write = some r' → AuditReport.read? text = some r') ∧
    (∀ r : ScanReport, IsVariedText ScanReport.shape r.toJson r.write ∧
      ∀ text, IsVariedText ScanReport.shape r.toJson text →
        (r.IsStorable → (∀ x ∈ r.floats, ReadsBack x) → ScanReport.read? text = some r) ∧
        ∀ r', ScanReport.read? r.write = some r' → ScanReport.read? text = some r') ∧
    ∀ (x : Json) (text : String), text.toList ∈ x.document →
      (Flaw AuditReport.shape x → AuditReport.read? text = none) ∧
      (Flaw ScanReport.shape x → ScanReport.read? text = none) ∧
      ((¬ ∃ l, x = number l) → ∀ after : String, (∃ c ∈ after.toList, ¬ isSpace c) →
        AuditReport.read? (text ++ after) = none ∧ ScanReport.read? (text ++ after) = none) := by
  refine ⟨fun r => ⟨isVariedText_pretty _ r.isPlain_toJson, fun text htext => ?_⟩,
    fun r => ⟨isVariedText_pretty _ r.isPlain_toJson, fun text htext => ?_⟩,
    fun x text htext => ⟨?_, ?_, fun hx after hafter => ?_⟩⟩
  · have hread (r' : AuditReport) (h : AuditReport.read? r.write = some r') :
        AuditReport.read? text = some r' :=
      read_variedText AuditReport.readsShape_ofJson? r.isPlain_toJson htext h
    exact ⟨fun hstorable hfloats => hread r (r.read?_write_iff.2 ⟨hstorable, hfloats⟩), hread⟩
  · have hread (r' : ScanReport) (h : ScanReport.read? r.write = some r') :
        ScanReport.read? text = some r' :=
      read_variedText ScanReport.readsShape_ofJson? r.isPlain_toJson htext h
    exact ⟨fun hstorable hfloats => hread r (r.read?_write_iff.2 ⟨hstorable, hfloats⟩), hread⟩
  · exact read_flaw AuditReport.readsShape_ofJson? htext
  · exact read_flaw ScanReport.readsShape_ofJson? htext
  · rw [AuditReport.read?, ScanReport.read?, parse_append_of_mem_document htext hx hafter]
    exact ⟨rfl, rfl⟩

/-! ## a text -/

namespace AuditReport

def members (r : AuditReport) : List (String × Json) := r.toJson.members?.getD []

/-- the members back to front, with a comment, and without the notes if there are none -/
def backToFront (r : AuditReport) : Json :=
  record (("comment", array [null]) :: (r.members.take 11 ++ r.members.drop 12)).reverse

theorem varied_backToFront {r : AuditReport} (h : r.auditorNotes = none) :
    Varied shape r.toJson r.backToFront := by
  have hnotes : r.toJson = record (r.members.take 11 ++ ("auditor_notes", null) ::
      r.members.drop 12) := by
    rw [toJson, h]
    rfl
  have hdrop : Variation shape r.toJson (record (r.members.take 11 ++ r.members.drop 12)) := by
    rw [hnotes]
    exact .drop _ _ (f := .optional "auditor_notes" .leaf) (by simp) rfl
  have hcomment : Variation shape (record (r.members.take 11 ++ r.members.drop 12))
      (record (("comment", array [null]) :: (r.members.take 11 ++ r.members.drop 12))) :=
    .insert [] _ _ (by decide)
  exact .tail (.tail (.tail .refl hdrop) hcomment) (.permute (List.reverse_perm _).symm)

theorem isPlain_backToFront (r : AuditReport) : r.backToFront.IsPlain := by
  have hmembers : ∀ m ∈ r.members, m.2.IsPlain := isPlain_record.1 r.isPlain_toJson
  refine isPlain_record.2 fun m hm => ?_
  rcases List.mem_cons.1 (List.mem_reverse.1 hm) with rfl | hm
  · exact ⟨trivial, trivial⟩
  · rcases List.mem_append.1 hm with hm | hm
    · exact hmembers m (List.mem_of_mem_take hm)
    · exact hmembers m (List.mem_of_mem_drop hm)

theorem isVariedText_backToFront {r : AuditReport} (h : r.auditorNotes = none) :
    IsVariedText shape r.toJson r.backToFront.pretty :=
  ⟨_, varied_backToFront h, pretty_mem_document r.isPlain_backToFront⟩

end AuditReport

/-- the same report back to front, with more text behind it, and with a second id in front -/
theorem varied_reports_back_to_front :
    IsVariedText AuditReport.shape leapSecondReport.toJson leapSecondReport.backToFront.pretty ∧
      AuditReport.read? leapSecondReport.backToFront.pretty = some leapSecondReport ∧
      AuditReport.read? (leapSecondReport.write ++ "\n\"\"") = none ∧
      AuditReport.read? (record (("audit_id", text "") :: leapSecondReport.members)).pretty =
        none := by
  have hvaried := AuditReport.isVariedText_backToFront (r := leapSecondReport) rfl
  refine ⟨hvaried, ?_, ?_, ?_⟩
  · exact ((varied_reports.1 leapSecondReport).2 _ hvaried).1 isStorable_leapSecondReport
      (by decide +kernel)
  · refine ((varied_reports.2.2 _ _ (pretty_mem_document leapSecondReport.isPlain_toJson)).2.2 ?_ _
      ⟨'"', by decide, by decide⟩).1
    rintro ⟨l, ⟨⟩⟩
  · have hplain : (record (("audit_id", text "") :: leapSecondReport.members)).IsPlain :=
      isPlain_record.2 (List.forall_mem_cons.2 ⟨isPlain_text "",
        isPlain_record.1 leapSecondReport.isPlain_toJson⟩)
    refine (varied_reports.2.2 _ _ (pretty_mem_document hplain)).1 ?_
    exact .twice (f := .needed "audit_id" .leaf) List.mem_cons_self (.cons_mem List.mem_cons_self)

/-- the report can be kept and its numbers are finite, and still another one is read -/
theorem varied_report_reads_as_another :
    unevenReport.IsStorable ∧ (∀ x ∈ unevenReport.floats, x.isFinite) ∧
      IsVariedText AuditReport.shape unevenReport.toJson unevenReport.backToFront.pretty ∧
      ∃ back, AuditReport.read? unevenReport.backToFront.pretty = some back ∧
        back ≠ unevenReport := by
  let back : AuditReport := { leapSecondReport with metrics := some ⟨1, 98.85, 100, 100, 100, 0⟩ }
  obtain ⟨hstart, hend, hnext, hfindings, -, hrisk⟩ := isStorable_leapSecondReport
  refine ⟨⟨hstart, hend, hnext, hfindings, ?_, hrisk⟩, by decide +kernel,
    AuditReport.isVariedText_backToFront rfl, back, ?_, by decide +kernel⟩
  · rintro m ⟨⟩
    exact Nat.le_of_ble_eq_true rfl
  · rw [AuditReport.read?, parse_pretty unevenReport.isPlain_backToFront]
    decide +kernel

end ContractAudit
