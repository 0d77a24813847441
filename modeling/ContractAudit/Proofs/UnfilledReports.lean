import ContractAudit.Proofs.Lifecycle

/-!
# Reports that end without being filled

There are two ways for a report to come to its last state.  An operation that ends the audit takes
it there and fills it; or the report is only advanced to that state, and then nothing fills it any
more, since no operation has an effect on it.

* `AuditReport.IsCutOff r ops`: somewhere in the run `ops` the report `r` is only advanced to its
  last state.
* `AuditReport.endings_append`: the endings of one run and another one after it.
* `AuditReport.endings_of_isCutOff`, `AuditReport.endings_ne_nil`: a run to the last state has an
  ending exactly if the report is not cut off.

The main statement is `finished_report_filled_iff`.
-/

namespace ContractAudit

namespace AuditReport

/-- the report is advanced to its last state by an operation that does not end the audit -/
def IsCutOff (r : AuditReport) (ops : List AuditOp) : Prop :=
  ∃ before next after, ops = before ++ .advance next :: after ∧ next.IsLast ∧
    (r.run before).accepts (.advance next)

theorem endings_append (r : AuditReport) (ops ops' : List AuditOp) :
    r.endings (ops ++ ops') = r.endings ops ++ (r.run ops).endings ops' := by
  induction ops generalizing r with
  | nil => rfl
  | cons op ops ih =>
    rw [List.cons_append, endings, endings, run_cons, ih]
    split
    · rw [List.cons_append]
    · rfl

/-- an ending takes the report to its last state, where it stays -/
theorem isLast_run_of_endings_ne_nil {r : AuditReport} {ops : List AuditOp}
    (h : r.endings ops ≠ []) : (r.run ops).status.IsLast := by
  induction ops generalizing r with
  | nil => exact absurd rfl h
  | cons op ops ih =>
    rw [run_cons]
    by_cases hop : op.isEnding ∧ r.accepts op
    · have hlast := isLast_apply hop.1 hop.2
      rw [run_of_isLast hlast]
      exact hlast
    · rw [endings, if_neg hop] at h
      exact ih h

/-- nothing ends the audit of a report that is cut off -/
theorem endings_of_isCutOff {r : AuditReport} {ops : List AuditOp} (h : r.IsCutOff ops) :
    r.endings ops = [] := by
  obtain ⟨before, next, after, rfl, hnext, haccepts⟩ := h
  have hbefore : r.endings before = [] := by
    by_contra hne
    exact AuditStatus.not_canBecome_of_isLast (isLast_run_of_endings_ne_nil hne) next haccepts
  have hlast : ((r.run before).apply (.advance next)).status.IsLast := by
    rw [status_apply haccepts]
    exact hnext
  have hno : ¬ ((AuditOp.advance next).isEnding ∧ (r.run before).accepts (.advance next)) :=
    fun h => Bool.false_ne_true h.1
  rw [endings_append, hbefore, List.nil_append, endings, if_neg hno, endings_of_isLast hlast]

/-- what an accepted advance leaves open can only be cut off later -/
theorem IsCutOff.cons {r : AuditReport} {op : AuditOp} {ops : List AuditOp}
    (h : (r.apply op).IsCutOff ops) : r.IsCutOff (op :: ops) := by
  obtain ⟨before, next, after, rfl, hnext, haccepts⟩ := h
  exact ⟨op :: before, next, after, rfl, hnext, haccepts⟩

/-- A report comes to its last state by an ending, unless it is cut off.  The induction is on the
run: each operation is refused, or ends the audit, or advances the report. -/
theorem endings_ne_nil {r : AuditReport} {ops : List AuditOp} (hr : ¬ r.status.IsLast)
    (hlast : (r.run ops).status.IsLast) (hcut : ¬ r.IsCutOff ops) : r.endings ops ≠ [] := by
  induction ops generalizing r with
  | nil => exact absurd hlast hr
  | cons op ops ih =>
    have hcut' : ¬ (r.apply op).IsCutOff ops := fun h => hcut h.cons
    rw [run_cons] at hlast
    by_cases haccepts : r.accepts op
    · by_cases hop : op.isEnding
      · rw [endings_cons_of_isEnding hop haccepts]
        exact List.cons_ne_nil _ _
      · have hopen : ¬ (r.apply op).status.IsLast := by
          rw [status_apply haccepts]
          cases op with
          | advance next => exact fun hnext => hcut ⟨[], next, ops, rfl, hnext, haccepts⟩
          | _ => exact absurd rfl hop
        rw [endings, if_neg fun h => hop h.1]
        exact ih hopen hlast hcut'
    · rw [apply_of_not_accepts haccepts] at hlast hcut'
      rw [endings, if_neg fun h => haccepts h.2, apply_of_not_accepts haccepts]
      exact ih hr hlast hcut'

end AuditReport

/-- **A finished report is filled, unless it was only advanced to its last state.**  Then no
operation has ended its audit, and all the fields that only the end of an audit fills are as they
were in the open report; otherwise exactly one operation has, and has filled them. -/
theorem finished_report_filled_iff (auditId projectName : String) (level : AuditLevel)
    (startTime : Instant) (ops : List AuditOp)
    (hlast : let r := (AuditReport.pending auditId projectName level startTime).run ops
      r.status = .completed ∨ r.status = .failed) :
    let opened := AuditReport.pending auditId projectName level startTime
    let r := opened.run ops
    ((r.endTime.isSome ∧ r.durationMinutes.isSome ∧
        ∃ s op, opened.endings ops = [(s, op)] ∧ op.isEnding ∧
          r.filling = op.filling startTime) ↔ ¬ opened.IsCutOff ops) ∧
      (opened.IsCutOff ops → opened.endings ops = [] ∧ r.filling = .empty) := by
  intro opened r
  obtain ⟨hfill, hlength⟩ := AuditReport.filling_run (rfl : opened.filling = .empty) ops
  change r.filling = AuditReport.fillingOf startTime (opened.endings ops) at hfill
  have hended := AuditReport.endings_eq_nil_or_single hlength
  refine ⟨⟨?_, fun hcut => ?_⟩, fun hcut => ?_⟩
  · rintro ⟨-, -, s, op, hsingle, -⟩ hcut
    rw [AuditReport.endings_of_isCutOff hcut] at hsingle
    cases hsingle
  · have hopen : ¬ opened.status.IsLast := by
      rintro (h | h) <;> cases h
    have hne := AuditReport.endings_ne_nil hopen hlast hcut
    obtain ⟨s, op, hsingle, hop⟩ := hended.resolve_left hne
    obtain ⟨hend, hmin, -⟩ := AuditFilling.eq_empty_or_filled startTime hended
    rw [← hfill] at hend hmin
    refine ⟨hend.2 hne, hmin.2 hne, s, op, hsingle, hop, ?_⟩
    rw [hfill, hsingle]
    rfl
  · have hnone := AuditReport.endings_of_isCutOff hcut
    refine ⟨hnone, ?_⟩
    rw [hfill, hnone]
    rfl

/-- a report that fails after an advance that was refused -/
theorem finished_report_filled_iff_failed :
    let t : Instant := ⟨1709208000, 0⟩
    let ops : List AuditOp := [.advance .completed, .fail "disk on fire" t]
    let opened := AuditReport.pending "AUDIT" "project" .basic t
    let r := opened.run ops
    r.status = .failed ∧ r.filling = (AuditOp.fail "disk on fire" t).filling t ∧
      ¬ opened.IsCutOff ops := by
  intro t ops opened r
  have hstatus : r.status = .failed := rfl
  have hfilled := (finished_report_filled_iff "AUDIT" "project" .basic t ops (.inr hstatus)).1
  exact ⟨hstatus, rfl, hfilled.1 ⟨rfl, rfl, _, _, rfl, rfl, rfl⟩⟩

/-- a report that is only advanced to its last state keeps nothing of what comes after that -/
theorem finished_report_unfilled :
    let t : Instant := ⟨1709208000, 0⟩
    let opened := AuditReport.pending "AUDIT" "project" .basic t
    let ops : List AuditOp := [.advance .failed, .fail "disk on fire" t]
    let r := opened.run ops
    r.status = .failed ∧ r.endTime = none ∧ r.durationMinutes = none ∧ r.auditorNotes = none ∧
      opened.endings ops = [] :=
  ⟨rfl, rfl, rfl, rfl, rfl⟩

end ContractAudit
