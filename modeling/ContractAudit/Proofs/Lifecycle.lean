import Mathlib.Data.List.Destutter
import ContractAudit.Audit.Report

/-!
# The life of a report

A report is opened in the state PENDING and then goes through operations, in any order and with any
arguments.  Those that its state does not allow change nothing.

* `AuditOp`, `AuditReport.apply`: the operations, and what they do.
* `AuditReport.accepts r op`: the state of `r` allows the operation.
* `AuditReport.apply_of_not_accepts`, `AuditReport.status_apply`, `AuditReport.filling_apply`: one
  operation.
* `AuditReport.run`: many operations, one after the other.
* `AuditReport.endings`: the operations of a run that end the audit and are accepted.
* `AuditFilling`: the fields of a report that only the end of an audit fills.
* `AuditReport.filling_run`: they are as the ending of the run leaves them, or empty.

The main statement is `report_life`.
-/

namespace ContractAudit

/-- an operation on a report -/
inductive AuditOp
  | advance (next : AuditStatus)
  | complete (outcome : AuditOutcome) (endTime : Instant)
  | completeEmpty (pattern : String) (endTime : Instant)
  | fail (error : String) (endTime : Instant)

namespace AuditStatus

/-- the audit is at its end -/
def IsLast (s : AuditStatus) : Prop := s = completed ∨ s = failed

theorem not_canBecome_of_isLast {s : AuditStatus} (h : s.IsLast) (next : AuditStatus) :
    ¬ s.canBecome next := by
  rcases h with rfl | rfl <;> cases next <;> decide

theorem ne_of_canBecome {s next : AuditStatus} (h : s.canBecome next) : s ≠ next := by
  rintro rfl
  cases s <;> exact absurd h (by decide)

/-- the ways on from a state -/
def paths : AuditStatus → List (List AuditStatus)
  | pending =>
    [[pending, inProgress, completed], [pending, inProgress, failed], [pending, failed]]
  | inProgress => [[inProgress, completed], [inProgress, failed]]
  | completed => [[completed]]
  | failed => [[failed]]

theorem cons_mem_paths {s next : AuditStatus} (h : s.canBecome next) {p : List AuditStatus}
    (hp : p ∈ next.paths) : s :: p ∈ s.paths := by
  cases s <;> cases next <;> simp [canBecome, paths] at h hp ⊢
  · exact hp.imp_right .inl
  · exact .inr (.inr hp)
  · exact .inl hp
  · exact .inr hp

theorem exists_cons_mem_paths (s : AuditStatus) : ∃ p, s :: p ∈ s.paths := by
  cases s <;> exact ⟨_, List.mem_cons_self⟩

end AuditStatus

/-! ## what is filled -/

/-- the fields of a report that only the end of an audit fills -/
structure AuditFilling where
  endTime : Option Instant
  durationMinutes : Option Float
  findings : List Finding
  metrics : Option (AuditMetrics Float)
  recommendations : List String
  risk : RiskAssessment
  auditorNotes : Option String
  nextAuditDate : Option Instant

/-- as an open report has them -/
def AuditFilling.empty : AuditFilling := ⟨none, none, [], none, [], .noInput, none, none⟩

/-- the fields of a report that only the end of an audit fills -/
def AuditReport.filling (r : AuditReport) : AuditFilling :=
  ⟨r.endTime, r.durationMinutes, r.findings, r.metrics, r.recommendations, r.risk,
    r.auditorNotes, r.nextAuditDate⟩

namespace AuditOp

/-- the state that an operation goes over to -/
def target : AuditOp → AuditStatus
  | advance next => next
  | complete .. | completeEmpty .. => .completed
  | fail .. => .failed

/-- the operation sets the end of the audit -/
def isEnding : AuditOp → Bool
  | advance _ => false
  | complete .. | completeEmpty .. | fail .. => true

/-- the operation ends an audit from this state -/
def EndsFrom : AuditOp → AuditStatus → Prop
  | advance _, _ => False
  | complete .., s | completeEmpty .., s => s = .inProgress
  | fail .., s => s = .pending ∨ s = .inProgress

/-- what the operation fills an open report with -/
def filling (startTime : Instant) : AuditOp → AuditFilling
  | advance _ => .empty
  | complete outcome t =>
    ⟨some t, some (startTime.minutesUntil t), outcome.findings, some outcome.metrics,
      outcome.recommendations, outcome.risk, none, t.nextYear?⟩
  | completeEmpty pattern t =>
    ⟨some t, some (startTime.minutesUntil t), [], none, ["No contract files found for audit"],
      .noInput,
      some ("No contract files matching '" ++ pattern ++ "' were found in the project directory"),
      none⟩
  | fail error t =>
    ⟨some t, some (startTime.minutesUntil t), [], none, ["Audit failed due to technical error"],
      .failed, some ("Audit failed with error: " ++ error), none⟩

theorem endsFrom_of_canBecome {op : AuditOp} {s : AuditStatus} (hop : op.isEnding)
    (h : s.canBecome op.target) : op.EndsFrom s := by
  cases op <;> cases s <;> simp [isEnding, target, AuditStatus.canBecome, EndsFrom] at *

theorem isLast_target {op : AuditOp} (h : op.isEnding) : op.target.IsLast := by
  cases op <;> simp [isEnding, target, AuditStatus.IsLast] at *

end AuditOp

namespace AuditReport

/-! ## one operation -/

def apply (r : AuditReport) : AuditOp → AuditReport
  | .advance next => r.advance next
  | .complete outcome endTime => r.complete outcome endTime
  | .completeEmpty pattern endTime => r.completeEmpty pattern endTime
  | .fail error endTime => r.fail error endTime

/-- the state of the report allows the operation -/
def accepts (r : AuditReport) (op : AuditOp) : Bool := r.status.canBecome op.target

section
variable {r : AuditReport} {next : AuditStatus}

theorem advance?_of_canBecome (h : r.status.canBecome next) :
    r.advance? next = some { r with status := next } := if_pos h

theorem advance?_of_not_canBecome (h : ¬ r.status.canBecome next) : r.advance? next = none :=
  if_neg h

theorem finish?_of_canBecome (h : r.status.canBecome next) (endTime : Instant) :
    r.finish? next endTime = some
      { r with
        status := next
        endTime := some endTime
        durationMinutes := some (r.startTime.minutesUntil endTime) } := by
  rw [finish?, advance?_of_canBecome h]
  rfl

theorem finish?_of_not_canBecome (h : ¬ r.status.canBecome next) (endTime : Instant) :
    r.finish? next endTime = none := by
  rw [finish?, advance?_of_not_canBecome h]
  rfl

end

section
variable {r : AuditReport} {op : AuditOp}

theorem apply_of_not_accepts (h : ¬ r.accepts op) : r.apply op = r := by
  cases op with
  | advance next =>
    have h : ¬ r.status.canBecome next := h
    show (r.advance? next).getD r = r
    rw [advance?_of_not_canBecome h]
    rfl
  | complete outcome endTime =>
    have h : ¬ r.status.canBecome .completed := h
    show r.complete outcome endTime = r
    rw [complete, finish?_of_not_canBecome h]
  | completeEmpty pattern endTime =>
    have h : ¬ r.status.canBecome .completed := h
    show r.completeEmpty pattern endTime = r
    rw [completeEmpty, finish?_of_not_canBecome h]
  | fail error endTime =>
    have h : ¬ r.status.canBecome .failed := h
    show r.fail error endTime = r
    rw [fail, finish?_of_not_canBecome h]

/-- what is allowed fills the fields of its own and no others -/
theorem apply_of_accepts (h : r.accepts op) :
    r.apply op =
      match op with
      | .advance next => { r with status := next }
      | .complete outcome t =>
        { r with
          status := .completed
          endTime := some t
          durationMinutes := some (r.startTime.minutesUntil t)
          findings := outcome.findings
          metrics := some outcome.metrics
          recommendations := outcome.recommendations
          risk := outcome.risk
          nextAuditDate := t.nextYear? }
      | .completeEmpty pattern t =>
        { r with
          status := .completed
          endTime := some t
          durationMinutes := some (r.startTime.minutesUntil t)
          recommendations := ["No contract files found for audit"]
          risk := .noInput
          auditorNotes := some
            ("No contract files matching '" ++ pattern ++
              "' were found in the project directory") }
      | .fail error t =>
        { r with
          status := .failed
          endTime := some t
          durationMinutes := some (r.startTime.minutesUntil t)
          findings := []
          metrics := none
          recommendations := ["Audit failed due to technical error"]
          risk := .failed
          auditorNotes := some ("Audit failed with error: " ++ error) } := by
  cases op with
  | advance next =>
    have h : r.status.canBecome next := h
    show (r.advance? next).getD r = _
    rw [advance?_of_canBecome h]
    rfl
  | complete outcome endTime =>
    have h : r.status.canBecome .completed := h
    show r.complete outcome endTime = _
    rw [complete, finish?_of_canBecome h]
  | completeEmpty pattern endTime =>
    have h : r.status.canBecome .completed := h
    show r.completeEmpty pattern endTime = _
    rw [completeEmpty, finish?_of_canBecome h]
  | fail error endTime =>
    have h : r.status.canBecome .failed := h
    show r.fail error endTime = _
    rw [fail, finish?_of_canBecome h]

theorem status_apply (h : r.accepts op) : (r.apply op).status = op.target := by
  rw [apply_of_accepts h]
  cases op <;> rfl

theorem isLast_apply (hop : op.isEnding) (h : r.accepts op) : (r.apply op).status.IsLast := by
  rw [status_apply h]
  exact AuditOp.isLast_target hop

/-- an operation that is allowed fills an open report -/
theorem filling_apply (h : r.accepts op) (hr : r.filling = .empty) :
    (r.apply op).filling = op.filling r.startTime := by
  simp only [filling, AuditFilling.empty, AuditFilling.mk.injEq] at hr
  obtain ⟨hend, hmin, hfind, hmet, hrec, hrisk, hnotes, hnext⟩ := hr
  rw [apply_of_accepts h]
  cases op with
  | advance next => simp [filling, AuditOp.filling, AuditFilling.empty, *]
  | complete outcome endTime => simp [filling, AuditOp.filling, hnotes]
  | completeEmpty pattern endTime => simp [filling, AuditOp.filling, hfind, hmet, hnext]
  | fail error endTime => simp [filling, AuditOp.filling, hnext]

/-- an operation has an effect if and only if it is allowed -/
theorem apply_ne_iff : r.apply op ≠ r ↔ r.accepts op := by
  constructor
  · intro h
    by_contra hno
    exact h (apply_of_not_accepts hno)
  · intro h e
    have hs := status_apply h
    rw [e] at hs
    exact AuditStatus.ne_of_canBecome h hs

/-- what a report has from the beginning -/
def heading (r : AuditReport) : String × String × AuditLevel × Instant :=
  (r.auditId, r.projectName, r.level, r.startTime)

theorem heading_apply (r : AuditReport) (op : AuditOp) : (r.apply op).heading = r.heading := by
  by_cases h : r.accepts op
  · rw [apply_of_accepts h]
    cases op <;> rfl
  · rw [apply_of_not_accepts h]

end

theorem startTime_apply (r : AuditReport) (op : AuditOp) :
    (r.apply op).startTime = r.startTime :=
  congrArg (fun x : String × String × AuditLevel × Instant => x.2.2.2) (r.heading_apply op)

theorem apply_of_isLast {r : AuditReport} (h : r.status.IsLast) (op : AuditOp) :
    r.apply op = r :=
  apply_of_not_accepts (AuditStatus.not_canBecome_of_isLast h _)

/-! ## many operations -/

/-- what operations, one after the other, make of a report -/
def run (r : AuditReport) (ops : List AuditOp) : AuditReport := ops.foldl apply r

/-- the report and what it becomes by each of the operations -/
def states (r : AuditReport) (ops : List AuditOp) : List AuditReport := ops.scanl apply r

/-- the operations that end the audit and are allowed, each with the state before it -/
def endings (r : AuditReport) : List AuditOp → List (AuditStatus × AuditOp)
  | [] => []
  | op :: ops =>
    if op.isEnding ∧ r.accepts op then (r.status, op) :: endings (r.apply op) ops
    else endings (r.apply op) ops

theorem run_cons (r : AuditReport) (op : AuditOp) (ops : List AuditOp) :
    r.run (op :: ops) = (r.apply op).run ops := rfl

theorem heading_run (r : AuditReport) (ops : List AuditOp) : (r.run ops).heading = r.heading := by
  induction ops generalizing r with
  | nil => rfl
  | cons op ops ih => rw [run_cons, ih, heading_apply]

theorem run_of_isLast {r : AuditReport} (h : r.status.IsLast) (ops : List AuditOp) :
    r.run ops = r := by
  induction ops with
  | nil => rfl
  | cons op ops ih => rw [run_cons, apply_of_isLast h, ih]

theorem endings_of_isLast {r : AuditReport} (h : r.status.IsLast) (ops : List AuditOp) :
    r.endings ops = [] := by
  induction ops with
  | nil => rfl
  | cons op ops ih =>
    rw [endings, if_neg fun hop => AuditStatus.not_canBecome_of_isLast h _ hop.2,
      apply_of_isLast h, ih]

theorem endings_cons_of_isEnding {r : AuditReport} {op : AuditOp} (hop : op.isEnding)
    (h : r.accepts op) (ops : List AuditOp) : r.endings (op :: ops) = [(r.status, op)] := by
  rw [endings, if_pos ⟨hop, h⟩, endings_of_isLast (isLast_apply hop h)]

theorem endsFrom_of_mem_endings {r : AuditReport} {ops : List AuditOp}
    {x : AuditStatus × AuditOp} (hx : x ∈ r.endings ops) : x.2.EndsFrom x.1 := by
  induction ops generalizing r with
  | nil => exact absurd hx List.not_mem_nil
  | cons op ops ih =>
    rw [endings] at hx
    split at hx
    · rename_i h
      rcases List.mem_cons.1 hx with rfl | hx
      · exact AuditOp.endsFrom_of_canBecome h.1 h.2
      · exact ih hx
    · exact ih hx

/-- what the endings of a run fill an open report with -/
def fillingOf (startTime : Instant) : List (AuditStatus × AuditOp) → AuditFilling
  | [] => .empty
  | x :: _ => x.2.filling startTime

/-- Until the audit is ended the report is open, and after that nothing changes. -/
theorem filling_run {r : AuditReport} (hr : r.filling = .empty) (ops : List AuditOp) :
    (r.run ops).filling = fillingOf r.startTime (r.endings ops) ∧ (r.endings ops).length ≤ 1 := by
  induction ops generalizing r with
  | nil => exact ⟨hr, Nat.zero_le 1⟩
  | cons op ops ih =>
    rw [run_cons]
    by_cases h : r.accepts op
    · have hfill := filling_apply h hr
      by_cases hop : op.isEnding
      · rw [run_of_isLast (isLast_apply hop h), endings_cons_of_isEnding hop h]
        exact ⟨hfill, le_refl 1⟩
      · have hopen : op.filling r.startTime = .empty := by
          cases op with
          | advance next => rfl
          | _ => exact absurd rfl hop
        have ih := ih (hfill.trans hopen)
        rw [startTime_apply] at ih
        rw [endings, if_neg fun hh => hop hh.1]
        exact ih
    · rw [endings, if_neg fun hh => h hh.2, apply_of_not_accepts h]
      exact ih hr

/-- the states on the way, repeats removed, follow one of the paths -/
theorem destutter_states (r : AuditReport) (ops : List AuditOp) :
    ∃ p ∈ r.status.paths,
      ((r.states ops).map (·.status)).destutter (· ≠ ·) <+: p := by
  induction ops generalizing r with
  | nil =>
    obtain ⟨p, hp⟩ := r.status.exists_cons_mem_paths
    exact ⟨r.status :: p, hp, p, rfl⟩
  | cons op ops ih =>
    obtain ⟨p, hp, hprefix⟩ := ih (r.apply op)
    have hstates : (r.states (op :: ops)).map (·.status) =
        r.status :: ((r.apply op).states ops).map (·.status) := by
      rw [states, List.scanl_cons, List.map_cons]
      rfl
    -- whether `r.status` is a repeat depends only on the state that comes next
    have htail : ∃ l, ((r.apply op).states ops).map (·.status) = (r.apply op).status :: l := by
      cases ops with
      | nil => exact ⟨[], rfl⟩
      | cons op' ops => exact ⟨_, by rw [states, List.scanl_cons, List.map_cons]⟩
    obtain ⟨l, hl⟩ := htail
    rw [hl, List.destutter_cons'] at hprefix
    rw [hstates, hl, List.destutter_cons']
    by_cases h : r.accepts op
    · have hstatus := status_apply h
      have hne : r.status ≠ (r.apply op).status := by
        rw [hstatus]
        exact AuditStatus.ne_of_canBecome h
      rw [List.destutter'_cons_pos _ hne]
      refine ⟨r.status :: p, AuditStatus.cons_mem_paths h (hstatus ▸ hp), ?_⟩
      exact List.cons_prefix_cons.2 ⟨rfl, hprefix⟩
    · rw [apply_of_not_accepts h] at hprefix hp ⊢
      rw [List.destutter'_cons_neg _ (not_not.2 rfl)]
      exact ⟨p, hp, hprefix⟩

end AuditReport

/-! ## the whole life of a report -/

theorem AuditFilling.eq_empty_or_filled (startTime : Instant) {ended : List (AuditStatus × AuditOp)}
    (h : ended = [] ∨ ∃ s op, ended = [(s, op)] ∧ op.isEnding) :
    let f := AuditReport.fillingOf startTime ended
    (f.endTime.isSome ↔ ended ≠ []) ∧ (f.durationMinutes.isSome ↔ ended ≠ []) ∧
      (f.findings ≠ [] ∨ f.metrics.isSome ∨ f.nextAuditDate.isSome →
        ∃ outcome t, ended.map Prod.snd = [.complete outcome t]) := by
  rcases h with rfl | ⟨s, op, rfl, hop⟩
  · simp [AuditReport.fillingOf, AuditFilling.empty]
  · cases op with
    | advance next => exact absurd hop (by simp [AuditOp.isEnding])
    | complete outcome t => simp [AuditReport.fillingOf, AuditOp.filling]
    | completeEmpty pattern t => simp [AuditReport.fillingOf, AuditOp.filling]
    | fail error t => simp [AuditReport.fillingOf, AuditOp.filling]

theorem AuditReport.endings_eq_nil_or_single {r : AuditReport} {ops : List AuditOp}
    (h : (r.endings ops).length ≤ 1) :
    r.endings ops = [] ∨ ∃ s op, r.endings ops = [(s, op)] ∧ op.isEnding := by
  rcases hl : r.endings ops with _ | ⟨x, l⟩
  · exact .inl rfl
  · obtain rfl : l = [] := by
      rw [hl, List.length_cons] at h
      exact List.length_eq_zero_iff.1 (by omega)
    refine .inr ⟨x.1, x.2, rfl, ?_⟩
    have hx := endsFrom_of_mem_endings (hl ▸ List.mem_cons_self : x ∈ r.endings ops)
    cases hop : x.2 with
    | advance next =>
      rw [hop] at hx
      exact hx.elim
    | _ => rfl

/-- **The life of a report**, whatever operations it goes through: its heading stays, its states
follow one of three paths, the last of them is final, at most one of the operations that end the
audit has an effect, and the fields that can be missing are filled by that operation and by no
other. -/
theorem report_life (auditId projectName : String) (level : AuditLevel) (startTime : Instant)
    (ops : List AuditOp) :
    let opened := AuditReport.pending auditId projectName level startTime
    let r := opened.run ops
    let ended := opened.endings ops
    (r.auditId = auditId ∧ r.projectName = projectName ∧ r.level = level ∧
      r.startTime = startTime) ∧
    ((∃ p ∈ [[.pending, .inProgress, .completed], [.pending, .inProgress, .failed],
          [.pending, .failed]],
        ((opened.states ops).map (·.status)).destutter (· ≠ ·) <+: p) ∧
      (r.status = .completed ∨ r.status = .failed → ∀ op, r.apply op = r)) ∧
    (ended.length ≤ 1 ∧ (∀ x ∈ ended, x.2.EndsFrom x.1) ∧
      ∀ op, r.apply op ≠ r ↔ r.accepts op) ∧
    (r.endTime.isSome ↔ ended ≠ []) ∧ (r.durationMinutes.isSome ↔ ended ≠ []) ∧
    (r.findings ≠ [] ∨ r.metrics.isSome ∨ r.nextAuditDate.isSome →
      ∃ outcome t, ended.map Prod.snd = [.complete outcome t]) ∧
    r.filling = AuditReport.fillingOf startTime ended := by
  intro opened r ended
  have hheading : r.heading = opened.heading := opened.heading_run ops
  simp only [AuditReport.heading, Prod.mk.injEq] at hheading
  obtain ⟨hfill, hlength⟩ := AuditReport.filling_run (rfl : opened.filling = .empty) ops
  change r.filling = AuditReport.fillingOf startTime ended at hfill
  obtain ⟨hend, hmin, hcomplete⟩ :=
    AuditFilling.eq_empty_or_filled startTime (AuditReport.endings_eq_nil_or_single hlength)
  rw [← hfill] at hend hmin hcomplete
  exact ⟨hheading, ⟨opened.destutter_states ops, fun h => AuditReport.apply_of_isLast h⟩,
    ⟨hlength, fun _ => AuditReport.endsFrom_of_mem_endings, fun _ => AuditReport.apply_ne_iff⟩,
    hend, hmin, hcomplete, hfill⟩

/-- a report that is completed with one finding after an attempt that came too early -/
theorem report_life_completed :
    let t : Instant := ⟨1709208000, 0⟩
    let found := Finding.ofLine ⟨"R-000", "T", "D", .low, "F", []⟩ 1 ['x']
    let outcome : AuditOutcome := ⟨[found], ⟨1, 0, 0, 0, 0, 0⟩, [], .noInput⟩
    let ops : List AuditOp := [.complete outcome t, .advance .inProgress, .complete outcome t]
    let opened := AuditReport.pending "AUDIT" "project" .basic t
    let r := opened.run ops
    (r.status = .completed ∧ r.findings ≠ []) ∧ r.apply (.fail "late" t) = r ∧
      ∃ outcome t, (opened.endings ops).map Prod.snd = [.complete outcome t] := by
  intro t found outcome ops opened r
  have hstatus : r.status = .completed := rfl
  have hfindings : r.findings ≠ [] := List.cons_ne_nil _ _
  obtain ⟨-, ⟨-, hlast⟩, -, -, -, hcomplete, -⟩ := report_life "AUDIT" "project" .basic t ops
  exact ⟨⟨hstatus, hfindings⟩, hlast (.inl hstatus) _, hcomplete (.inl hfindings)⟩

end ContractAudit
