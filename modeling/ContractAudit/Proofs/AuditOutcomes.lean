import ContractAudit.Proofs.ScanAudit

/-!
# What an audit comes to

An audit finds contracts, reads all of them, and only then looks at what they hold.  The first
contract in the order of paths that cannot be read ends it.

* `mapM_readSource_cases`: all files can be read, or one of them is the first that cannot.
* `auditOutcome_of_readable`, `auditOutcome_of_unreadable`, `auditOutcome_of_no_contracts`,
  `auditOutcome_of_walk_error`, `auditOutcome_of_parse_error`: the outcomes of an audit.
* `toOption_auditOutcome_congr`: what an outcome depends on.
* `AuditReport.IsFailed r e`: the report of an audit that the error `e` ended.
* `AuditReport.IsEmpty r pattern`: the report of an audit without contracts.
-/

namespace ContractAudit

section
variable {t : FileTree} {root : Path} {pattern : String} {g : Glob.Pattern}
  {entries : List (Path × Entry)}

/-! ## reading -/

theorem readSource_of_error {file : Path} {e : IoError} (h : t.readText file = .error e) :
    readSource t file = .error (.fileRead file e) := by
  rw [readSource, h]

/-- all files can be read, or one of them is the first that cannot -/
theorem mapM_readSource_cases (t : FileTree) (files : List Path) :
    (∀ file ∈ files, ∃ s, t.readText file = .ok s) ∨
    ∃ before file after e, files = before ++ file :: after ∧
      (∀ other ∈ before, ∃ s, t.readText other = .ok s) ∧ t.readText file = .error e ∧
      files.mapM (readSource t) = .error (.fileRead file e) := by
  induction files with
  | nil => exact .inl (List.forall_mem_nil _)
  | cons file files ih =>
    rw [List.mapM_cons]
    cases hfile : t.readText file with
    | error e =>
      refine .inr ⟨[], file, files, e, rfl, List.forall_mem_nil _, hfile, ?_⟩
      rw [readSource_of_error hfile]
      rfl
    | ok s =>
      rw [readSource_of_readText hfile]
      rcases ih with hread | ⟨before, bad, after, e, hsplit, hread, hbad, herror⟩
      · exact .inl (List.forall_mem_cons.2 ⟨⟨s, hfile⟩, hread⟩)
      · refine .inr ⟨file :: before, bad, after, e, congrArg (file :: ·) hsplit,
          List.forall_mem_cons.2 ⟨⟨s, hfile⟩, hread⟩, hbad, ?_⟩
        rw [herror]
        rfl

theorem exists_text_of_contracts
    (h : ∀ x ∈ entries.filter (isContract g), ∃ s, t.readText x.1 = .ok s) :
    ∀ file ∈ contracts g entries, ∃ s, t.readText file = .ok s := by
  intro file hfile
  obtain ⟨x, hx, rfl⟩ := mem_contracts.1 hfile
  exact h x hx

/-! ## outcomes -/

/-- a walk only comes to a contract from a root that exists -/
theorem pathExists_of_walk (hwalk : t.walk root = .ok entries)
    (hmatching : entries.filter (isContract g) ≠ []) : t.pathExists root := by
  obtain ⟨l, e, base, hl, he, hbase, h⟩ := FileTree.walk_eq_ok_iff.1 hwalk
  split at h
  · exact pathExists_of_isDirectory ‹_›
  · subst h
    have hfile : e.isFile := by
      by_contra hfile
      exact hmatching (List.filter_eq_nil_iff.2 (List.forall_mem_singleton.2 fun hcontract =>
        hfile (isContract_iff.1 hcontract).1))
    have hfollowed : t.locate .followed root = .ok l :=
      FileTree.locate_followed_of_asItIs hl fun target hlink => by
        rw [he] at hlink
        rw [Option.some.inj hlink] at hfile
        cases hfile
    rw [FileTree.pathExists, FileTree.entryAt?, hfollowed]
    exact Option.isSome_iff_exists.2 ⟨e, he⟩

theorem auditOutcome_of_discover_error {e : AuditError}
    (h : discover t root pattern = .error e) : auditOutcome t root pattern = .error e := by
  rw [auditOutcome, h]
  rfl

theorem auditOutcome_of_nil (h : discover t root pattern = .ok []) :
    auditOutcome t root pattern = .ok none := by
  rw [auditOutcome, h]
  rfl

theorem auditOutcome_of_mapM_error {file : Path} {files : List Path}
    (hfiles : discover t root pattern = .ok (file :: files)) {e : AuditError}
    (h : (file :: files).mapM (readSource t) = .error e) :
    auditOutcome t root pattern = .error e := by
  rw [auditOutcome, hfiles]
  show ((file :: files).mapM (readSource t) >>= fun sources => _) = _
  rw [h]
  rfl

theorem auditOutcome_of_parse_error {e : GlobError} (hg : Glob.parse pattern = .error e) :
    auditOutcome t root pattern = .error (.pattern e) :=
  auditOutcome_of_discover_error (discover_of_parse_error hg)

theorem auditOutcome_of_walk_error (hg : Glob.parse pattern = .ok g) (hroot : t.pathExists root)
    {e : WalkError} (hwalk : t.walk root = .error e) :
    auditOutcome t root pattern = .error (.walk e.path e.cause) :=
  auditOutcome_of_discover_error (discover_of_walk_error hg hroot hwalk)

theorem auditOutcome_of_no_contracts (hg : Glob.parse pattern = .ok g)
    (h : ¬ t.pathExists root ∨
      ∃ entries, t.walk root = .ok entries ∧ entries.filter (isContract g) = []) :
    auditOutcome t root pattern = .ok none := by
  refine auditOutcome_of_nil ?_
  by_cases hroot : t.pathExists root
  · obtain ⟨entries, hwalk, hmatching⟩ := h.resolve_left (not_not_intro hroot)
    rw [discover_of_walk hg hroot hwalk, contracts_eq_nil_iff.2 hmatching]
  · exact discover_of_not_pathExists hg hroot

section
variable (hg : Glob.parse pattern = .ok g) (hwalk : t.walk root = .ok entries)
include hg hwalk

theorem exists_discover (hmatching : entries.filter (isContract g) ≠ []) :
    ∃ file files, contracts g entries = file :: files ∧
      discover t root pattern = .ok (file :: files) := by
  obtain ⟨file, files, hcontracts⟩ :=
    List.exists_cons_of_ne_nil (mt contracts_eq_nil_iff.1 hmatching)
  refine ⟨file, files, hcontracts, ?_⟩
  rw [discover_of_walk hg (pathExists_of_walk hwalk hmatching) hwalk, hcontracts]

theorem auditOutcome_of_readable (hmatching : entries.filter (isContract g) ≠ [])
    {text : Path → String}
    (htext : ∀ file ∈ contracts g entries, t.readText file = .ok (text file)) :
    let sources := (contracts g entries).map fun file => (text file).toList
    ∃ metrics,
      projectMetrics sources (.ofNames (entries.filterMap walkedFileName?)) = .ok metrics ∧
      auditOutcome t root pattern = .ok (some (.ofSources sources metrics)) := by
  intro sources
  obtain ⟨file, files, hcontracts, hfiles⟩ := exists_discover hg hwalk hmatching
  obtain ⟨metrics, hmetrics, -⟩ := projectMetrics_cons (text file).toList
    (files.map fun other => (text other).toList) (.ofNames (entries.filterMap walkedFileName?))
  rw [← List.map_cons (f := fun other => (text other).toList), ← hcontracts] at hmetrics
  refine ⟨metrics, hmetrics,
    auditOutcome_of_ok hfiles ?_ (documentation_of_walk hwalk) hmetrics⟩
  rw [← hcontracts]
  exact mapM_readSource htext

/-- the first contract that cannot be read ends the audit -/
theorem auditOutcome_of_unreadable
    (hbad : ∃ x ∈ entries.filter (isContract g), ∃ e, t.readText x.1 = .error e) :
    ∃ before file after e, contracts g entries = before ++ file :: after ∧
      (∀ other ∈ before, ∃ s, t.readText other = .ok s) ∧ t.readText file = .error e ∧
      auditOutcome t root pattern = .error (.fileRead file e) := by
  obtain ⟨x, hx, e, he⟩ := hbad
  obtain ⟨file, files, hcontracts, hfiles⟩ := exists_discover hg hwalk (List.ne_nil_of_mem hx)
  rcases mapM_readSource_cases t (file :: files) with
    hread | ⟨before, bad, after, e, hsplit, hread, hbad, herror⟩
  · obtain ⟨s, hs⟩ := hread x.1 (hcontracts ▸ mem_contracts.2 ⟨x, hx, rfl⟩)
    rw [he] at hs
    cases hs
  · exact ⟨before, bad, after, e, hcontracts.trans hsplit, hread, hbad,
      auditOutcome_of_mapM_error hfiles herror⟩

end

/-- which error ends the reading of files makes no difference -/
theorem toOption_mapM_readSource (t : FileTree) (files : List Path) :
    (files.mapM (readSource t)).toOption =
      (files.map t.readText).mapM fun text => text.toOption.map String.toList := by
  induction files with
  | nil => rfl
  | cons file files ih =>
    rw [List.mapM_cons, List.map_cons, List.mapM_cons, ← ih]
    cases hfile : t.readText file with
    | error e =>
      rw [readSource_of_error hfile]
      rfl
    | ok s =>
      rw [readSource_of_readText hfile]
      cases files.mapM (readSource t) <;> rfl

theorem toOption_auditOutcome (hg : Glob.parse pattern = .ok g) (hroot : t.pathExists root)
    (hwalk : t.walk root = .ok entries) :
    (auditOutcome t root pattern).toOption =
      if contracts g entries = [] then some none
      else ((contracts g entries).map t.readText).mapM
        (fun text => text.toOption.map String.toList) >>= fun sources =>
          (projectMetrics sources (.ofNames (entries.filterMap walkedFileName?))).toOption.map
            fun metrics => some (.ofSources sources metrics) := by
  have hfiles := discover_of_walk hg hroot hwalk
  cases hcontracts : contracts g entries with
  | nil =>
    rw [hcontracts] at hfiles
    rw [auditOutcome_of_nil hfiles, if_pos rfl]
    rfl
  | cons file files =>
    rw [hcontracts] at hfiles
    unfold auditOutcome
    rw [hfiles, if_neg (List.cons_ne_nil _ _), ← toOption_mapM_readSource]
    show ((file :: files).mapM (readSource t) >>= fun sources => documentation t root >>=
      fun documents => projectMetrics sources documents >>= fun metrics =>
        pure (some (AuditOutcome.ofSources sources metrics))).toOption = _
    rw [documentation_of_walk hwalk]
    cases (file :: files).mapM (readSource t) with
    | error e => rfl
    | ok sources =>
      show (projectMetrics sources _ >>= _).toOption = (projectMetrics sources _).toOption.map _
      cases projectMetrics sources (.ofNames (entries.filterMap walkedFileName?)) <;> rfl

/-- an audit asks for nothing but what the contracts hold and which documents there are -/
theorem toOption_auditOutcome_congr {t' : FileTree} {root' : Path} {entries' : List (Path × Entry)}
    (hg : Glob.parse pattern = .ok g) (hroot : t.pathExists root) (hroot' : t'.pathExists root')
    (hwalk : t.walk root = .ok entries) (hwalk' : t'.walk root' = .ok entries')
    (hread : (contracts g entries').map t'.readText = (contracts g entries).map t.readText)
    (hdocuments : DocumentationPresence.ofNames (entries'.filterMap walkedFileName?) =
      .ofNames (entries.filterMap walkedFileName?)) :
    (auditOutcome t' root' pattern).toOption = (auditOutcome t root pattern).toOption := by
  have hnil : contracts g entries' = [] ↔ contracts g entries = [] := by
    rw [← List.map_eq_nil_iff (f := t'.readText), hread, List.map_eq_nil_iff]
  rw [toOption_auditOutcome hg hroot hwalk, toOption_auditOutcome hg hroot' hwalk', hread,
    hdocuments]
  simp only [hnil]

end

/-! ## reports -/

/-- the report of an audit that an error ended -/
structure AuditReport.IsFailed (r : AuditReport) (e : AuditError) : Prop where
  status : r.status = .failed
  findings : r.findings = []
  metrics : r.metrics = none
  recommendations : r.recommendations = ["Audit failed due to technical error"]
  riskLevel : r.risk.riskLevel = .unknown
  riskScore : r.risk.riskScore = -1
  severityBreakdown : ∀ v, r.risk.severityBreakdown.get v = 0
  deployment : r.risk.deployment = none
  nextAuditDate : r.nextAuditDate = none
  auditorNotes : r.auditorNotes = some ("Audit failed with error: " ++ e.message)

/-- the report of an audit without contracts -/
structure AuditReport.IsEmpty (r : AuditReport) (pattern : String) : Prop where
  status : r.status = .completed
  findings : r.findings = []
  metrics : r.metrics = none
  recommendations : r.recommendations = ["No contract files found for audit"]
  riskLevel : r.risk.riskLevel = .low
  riskScore : r.risk.riskScore = 0
  severityBreakdown : ∀ v, r.risk.severityBreakdown.get v = 0
  deployment : r.risk.deployment = none
  nextAuditDate : r.nextAuditDate = none
  auditorNotes : r.auditorNotes = some
    ("No contract files matching '" ++ pattern ++ "' were found in the project directory")

section
variable {t : FileTree} {root : Path} {pattern : String} (level : AuditLevel)
  (period : AuditPeriod)

theorem comprehensiveAudit_of_error {e : AuditError}
    (h : auditOutcome t root pattern = .error e) :
    (comprehensiveAudit t root pattern level period).IsFailed e := by
  rw [comprehensiveAudit, h]
  exact ⟨rfl, rfl, rfl, rfl, rfl, rfl, fun v => by cases v <;> rfl, rfl, rfl, rfl⟩

theorem comprehensiveAudit_of_none (h : auditOutcome t root pattern = .ok none) :
    (comprehensiveAudit t root pattern level period).IsEmpty pattern := by
  rw [comprehensiveAudit, h]
  exact ⟨rfl, rfl, rfl, rfl, rfl, rfl, fun v => by cases v <;> rfl, rfl, rfl, rfl⟩

end

end ContractAudit
