import ContractAudit.Proofs.RepeatedAudits
import ContractAudit.Proofs.UnreadableContracts

/-!
# Projects with equal trees

Two roots may be spelled in different ways, and may stand in different places.  If the same files
and directories are below them, audits say the same of both, and scans find the same in the same
files.

* `FileTree.SameBelow t' base' t base`: the same files and directories are below two places.
* `contractsBelow`, `contracts_eq_map`: the contracts of a walk by their names below the root.
* `ScanOutput.AgreesBelow`: two scans bring the same, file by file.
* `SameProjects`: two roots with the same below them.
* `SameProjects.contractsBelow_perm`, `sortNames_congr`: then the same names lead to the contracts,
  and in the same order.
* `SameProjects.readText_eq`: and the same is read there.

The main statement is `equal_trees`.
-/

namespace ContractAudit

open Std

/-! ## names below a root -/

/-- the name of a file that names lead to; other entries have none here -/
def fileNameBelow? (x : Location × Entry) : Option RawText :=
  if x.2.isFile then x.1.getLast? else none

/-- the names that lead to the contracts below a place -/
def contractsBelow (g : Glob.Pattern) (t : FileTree) (base : Location) : List Location :=
  let fits (x : Location × Entry) := (fileNameBelow? x).any fun name => g.matchesName name.text
  ((t.below base).filter fits).map (·.1)

/-- names in the order of the paths that they make -/
def sortNames (ls : List Location) : List Location :=
  ls.mergeSort fun a b => (compare (a.map Path.Component.name) (b.map Path.Component.name)).isLE

theorem isContract_eq_any (g : Glob.Pattern) (x : Path × Entry) :
    isContract g x = (walkedFileName? x).any fun name => g.matchesName name.text := by
  unfold isContract
  cases walkedFileName? x <;> rfl

theorem compare_append_left {α : Type} [Ord α] [TransOrd α] (s a b : List α) :
    compare (s ++ a) (s ++ b) = compare a b := by
  induction s with
  | nil => rfl
  | cons x s ih =>
    have hself : compare x x = .eq := ReflCmp.compare_self
    rw [List.cons_append, List.cons_append, List.compare_cons_cons, hself, ih]
    rfl

/-- names that make the same path are the same, so sorting does not depend on the order before -/
theorem sortNames_congr {ls ls' : List Location} (h : ls.Perm ls') :
    sortNames ls = sortNames ls' := by
  have hsorted (ls : List Location) : (sortNames ls).Pairwise fun a b =>
      (compare (a.map Path.Component.name) (b.map Path.Component.name)).isLE := by
    refine List.pairwise_mergeSort ?_ ?_ ls
    · intro a b c hab hbc
      exact TransCmp.isLE_trans hab hbc
    · intro a b
      cases hab : compare (a.map Path.Component.name) (b.map Path.Component.name) with
      | gt => rw [OrientedCmp.lt_of_gt hab]; rfl
      | _ => rfl
  have hperm : (sortNames ls).Perm (sortNames ls') :=
    (List.mergeSort_perm _ _).trans (h.trans (List.mergeSort_perm _ _).symm)
  -- two sorted lists of the same names are equal, as no two names are level in the order
  refine hperm.eq_of_pairwise (fun a b _ _ hab hba => ?_) (hsorted ls) (hsorted ls')
  have heq := OrientedCmp.isLE_antisymm hab hba
  exact List.map_injective_iff.2 (fun _ _ h => Path.Component.name.inj h)
    (LawfulEqOrd.eq_of_compare heq)

section
variable {t : FileTree} {root : Path} {base : Location} {g : Glob.Pattern}

theorem FileTree.IsSound.mem_below_iff_entry (ht : t.IsSound) {names : Location} {e : Entry} :
    (names, e) ∈ t.below base ↔ names ≠ [] ∧ t.entry? (base ++ names) = some e := by
  rw [FileTree.mem_below_iff]
  refine and_congr_right fun hne => ?_
  exact (ht.entry_eq_some_iff (List.append_ne_nil_of_right_ne_nil base hne)).symm

theorem walkedFileName?_pathBelow (ht : t.IsSound) (hroot : ¬ root.raw.isEmpty)
    {x : Location × Entry} (hx : x ∈ t.below base) :
    walkedFileName? (FileTree.pathBelow root x.1, x.2) = fileNameBelow? x := by
  obtain ⟨above, name, hnames⟩ :=
    (List.eq_nil_or_concat' x.1).resolve_left (FileTree.mem_below_iff.1 hx).1
  have hname : IsName name := ht.isName_of_mem_below hx name (by simp [hnames])
  have hlast : x.1.getLast? = some name := by rw [hnames, List.getLast?_concat]
  unfold walkedFileName? fileNameBelow?
  rw [FileTree.fileName?_pathBelow_of_getLast? hroot hlast hname, hlast]

theorem compare_pathBelow (hroot : ¬ root.raw.isEmpty) {a b : Location}
    (ha : ∀ name ∈ a, IsName name) (hb : ∀ name ∈ b, IsName name) :
    compare (FileTree.pathBelow root a) (FileTree.pathBelow root b) =
      compare (a.map Path.Component.name) (b.map Path.Component.name) := by
  show compare (FileTree.pathBelow root a).components (FileTree.pathBelow root b).components = _
  rw [FileTree.components_pathBelow hroot ha, FileTree.components_pathBelow hroot hb,
    compare_append_left]

/-- the contracts of a walk, by their names below the root -/
theorem contracts_eq_map (ht : t.IsSound) (hroot : ¬ root.raw.isEmpty) {e : Entry}
    (he : ¬ e.isFile) : contracts g ((root, e) :: t.pathsBelow root base) =
      (sortNames (contractsBelow g t base)).map (FileTree.pathBelow root) := by
  -- the root is on the walk as well, but it is no file
  have hfirst : ¬ isContract g (root, e) := fun hcontract => he (isContract_iff.1 hcontract).1
  have hpaths : ((t.pathsBelow root base).filter (isContract g)).map (·.1) =
      (contractsBelow g t base).map (FileTree.pathBelow root) := by
    unfold FileTree.pathsBelow contractsBelow
    rw [List.filter_map, List.map_map, List.map_map]
    congr 1
    apply List.filter_congr
    intro x hx
    show isContract g (FileTree.pathBelow root x.1, x.2) = _
    rw [isContract_eq_any, walkedFileName?_pathBelow ht hroot hx]
  have hnames : ∀ names ∈ contractsBelow g t base, ∀ name ∈ names, IsName name := by
    intro names hmem
    obtain ⟨x, hx, rfl⟩ := List.mem_map.1 hmem
    exact ht.isName_of_mem_below (List.mem_filter.1 hx).1
  unfold contracts sortPaths sortNames
  rw [List.filter_cons_of_neg hfirst, hpaths, List.map_mergeSort]
  intro a ha b hb
  rw [compare_pathBelow hroot (hnames a ha) (hnames b hb)]

theorem filterMap_walkedFileName? (ht : t.IsSound) (hroot : ¬ root.raw.isEmpty) {e : Entry}
    (he : ¬ e.isFile) : ((root, e) :: t.pathsBelow root base).filterMap walkedFileName? =
      (t.below base).filterMap fileNameBelow? := by
  have hfirst : walkedFileName? (root, e) = none := if_neg he
  unfold FileTree.pathsBelow
  rw [List.filterMap_cons_none hfirst, List.filterMap_map]
  apply List.filterMap_congr
  intro x hx
  exact walkedFileName?_pathBelow ht hroot hx

theorem mem_contractsBelow (ht : t.IsSound) {names : Location} :
    names ∈ contractsBelow g t base ↔ names ≠ [] ∧ ∃ e, t.entry? (base ++ names) = some e ∧
      ∃ name, fileNameBelow? (names, e) = some name ∧ g.matchesName name.text := by
  unfold contractsBelow
  simp only [List.mem_map, List.mem_filter, Prod.exists, ht.mem_below_iff_entry,
    Option.any_eq_true]
  constructor
  · rintro ⟨_, e, ⟨⟨hne, he⟩, hfits⟩, rfl⟩
    exact ⟨hne, e, he, hfits⟩
  · rintro ⟨hne, e, he, hfits⟩
    exact ⟨names, e, ⟨⟨hne, he⟩, hfits⟩, rfl⟩

theorem exists_cannotOpen_iff (ht : t.IsSound) :
    (∃ x ∈ t.pathsBelow root base, FileTree.cannotOpen x) ↔
      ∃ names, names ≠ [] ∧ (t.entry? (base ++ names) = some .lockedDirectory ∨
        t.entry? (base ++ names) = some .directory ∧
          FileTree.isTooLong (FileTree.pathBelow root names)) := by
  unfold FileTree.pathsBelow
  simp only [List.mem_map, Prod.exists, ht.mem_below_iff_entry]
  constructor
  · rintro ⟨_, _, ⟨names, e, ⟨hne, he⟩, hpath⟩, hcannot⟩
    obtain ⟨rfl, rfl⟩ := Prod.mk.inj hpath
    refine ⟨names, hne, ?_⟩
    cases e with
    | lockedDirectory => exact .inl he
    | directory => exact .inr ⟨he, hcannot⟩
    | _ => cases hcannot
  · rintro ⟨names, hne, he | ⟨he, hlong⟩⟩
    · exact ⟨_, _, ⟨names, _, ⟨hne, he⟩, rfl⟩, rfl⟩
    · exact ⟨_, _, ⟨names, _, ⟨hne, he⟩, rfl⟩, hlong⟩

end

/-! ## scans -/

/-- the results of files by the names that lead to them from a root -/
def ScanResults.below (root : Path) (parts : List (Location × List Finding)) : ScanResults :=
  ⟨parts.map fun x => (FileTree.pathBelow root x.1, x.2)⟩

/-- the files with findings, by the names that lead to them -/
def partsBelow (t : FileTree) (root : Path) (ls : List Location) :
    List (Location × List Finding) :=
  (ls.map fun names => (names, scanFile t (FileTree.pathBelow root names))).filter (·.2 ≠ [])

theorem scannedParts_map (t : FileTree) (root : Path) (ls : List Location) :
    ScanResults.mk (scannedParts t (ls.map (FileTree.pathBelow root))) =
      .below root (partsBelow t root ls) := by
  unfold scannedParts partsBelow ScanResults.below
  rw [List.map_map, List.filter_map, List.filter_map, List.map_map]
  rfl

theorem ScanResults.allFindings_below (root : Path) (parts : List (Location × List Finding)) :
    (below root parts).allFindings = parts.flatMap (·.2) := by
  unfold allFindings below
  rw [List.flatMap_map]

/-- The findings of a report are listed under the texts of paths below a root.  If all the paths are
texts, every file has its own place in the list. -/
structure ScanReport.ListsBelow (r : ScanReport) (root : Path)
    (parts : List (Location × List Finding)) : Prop where
  eq_ofList : r.detailedFindings =
    Ordered.ofList (parts.map fun x => ((FileTree.pathBelow root x.1).text, x.2))
  perm : (∀ x ∈ parts, (FileTree.pathBelow root x.1).raw.IsUtf8) →
    r.detailedFindings.Perm (parts.map fun x => ((FileTree.pathBelow root x.1).text, x.2))

/-- two scans bring the same, file by file -/
structure ScanOutput.AgreesBelow (root' : Path) (brought' : ScanOutput) (root : Path)
    (brought : ScanOutput) : Prop where
  summary : brought'.report.summary = brought.report.summary
  recommendations : brought'.report.recommendations = brought.report.recommendations
  statistics : brought'.statistics = brought.statistics
  findings : ∃ parts : List (Location × List Finding),
    brought.report.ListsBelow root parts ∧ brought'.report.ListsBelow root' parts

section
variable {t : FileTree} {root : Path} {files : List Path} {parts : List (Location × List Finding)}

theorem listsBelow_ofFiles (h : scanFiles t files = .below root parts) :
    (ScanOutput.ofFiles t files).report.ListsBelow root parts := by
  unfold ScanOutput.ofFiles
  constructor
  · rw [h]
    show Ordered.ofList ((ScanResults.below root parts).files.map _) = _
    rw [ScanResults.below, List.map_map]
    rfl
  · intro hutf8
    have hperm := ScanReport.detailedFindings_perm (increases_scanFiles t files)
    rw [h, ScanResults.below, List.map_map] at hperm
    rw [h]
    exact hperm (List.forall_mem_map.2 hutf8)

theorem agreesBelow_ofFiles {t' : FileTree} {root' : Path} {files' : List Path}
    (h : scanFiles t files = .below root parts) (h' : scanFiles t' files' = .below root' parts)
    (hlength : files'.length = files.length) :
    ScanOutput.AgreesBelow root' (.ofFiles t' files') root (.ofFiles t files) := by
  have hfindings : (scanFiles t' files').allFindings = (scanFiles t files).allFindings := by
    rw [h, h', ScanResults.allFindings_below, ScanResults.allFindings_below]
  have hfiles : (scanFiles t' files').files.length = (scanFiles t files).files.length := by
    rw [h, h']
    unfold ScanResults.below
    rw [List.length_map, List.length_map]
  constructor
  · show ScanSummary.mk _ _ _ _ _ _ = ScanSummary.mk _ _ _ _ _ _
    rw [hfindings, hfiles]
  · show scanRecommendations _ = scanRecommendations _
    rw [hfindings]
  · show ScanStatistics.mk _ _ _ _ _ = ScanStatistics.mk _ _ _ _ _
    rw [hfindings, hfiles, hlength]
  · exact ⟨parts, listsBelow_ofFiles h, listsBelow_ofFiles h'⟩

end

/-! ## equal trees -/

/-- below two places there are the same files and the same directories, and the same of them are
closed; links do not count -/
def FileTree.SameBelow (t' : FileTree) (base' : Location) (t : FileTree) (base : Location) : Prop :=
  ∀ names e, (∀ target, e ≠ .link target) →
    (t'.entry? (base' ++ names) = some e ↔ t.entry? (base ++ names) = some e)

theorem FileTree.IsSound.sameBelow_of_perm {t t' : FileTree} {base base' : Location}
    (ht : t.IsSound) (ht' : t'.IsSound) (he : t'.entry? base' = t.entry? base)
    (hbelow : (t'.below base').Perm (t.below base)) : t'.SameBelow base' t base := by
  intro names e _
  by_cases hne : names = []
  · rw [hne, List.append_nil, List.append_nil, he]
  · rw [← and_iff_right (b := t'.entry? _ = _) hne, ← ht'.mem_below_iff_entry, hbelow.mem_iff,
      ht.mem_below_iff_entry, and_iff_right hne]

/-- two roots lead to directories that have the same below them, and what an audit opens there has
too long a path from both roots or from none -/
structure SameProjects (pattern : String) (t' : FileTree) (root' : Path) (base' : Location)
    (t : FileTree) (root : Path) (base : Location) : Prop where
  located : t.locate .followed root = .ok base
  located' : t'.locate .followed root' = .ok base'
  directory : t.isDirectory root
  same : t'.SameBelow base' t base
  long : ∀ names e, t.entry? (base ++ names) = some e →
    (e = .directory ∨ ∃ name, fileNameBelow? (names, e) = some name ∧ FitsName pattern name) →
    FileTree.isTooLong (FileTree.pathBelow root' names) =
      FileTree.isTooLong (FileTree.pathBelow root names)

theorem isFile_of_fileNameBelow? {names : Location} {e : Entry} {name : RawText}
    (h : fileNameBelow? (names, e) = some name) : e.isFile ∧ ∀ target, e ≠ .link target := by
  unfold fileNameBelow? at h
  split_ifs at h with hfile
  refine ⟨hfile, ?_⟩
  rintro target rfl
  cases hfile

namespace SameProjects

section
variable {t t' : FileTree} {root root' : Path} {base base' : Location} {pattern : String}
  {g : Glob.Pattern} (h : SameProjects pattern t' root' base' t root base) (ht : t.IsRooted)
  (ht' : t'.IsRooted)
include h ht ht'

omit ht ht' in
/-- both roots lead to closed directories, or both to open ones -/
theorem entry_cases :
    t.entry? base = some .lockedDirectory ∧ t'.entry? base' = some .lockedDirectory ∨
      t.entry? base = some .directory ∧ t'.entry? base' = some .directory := by
  have hsame (e : Entry) (he : ∀ target, e ≠ .link target) (hbase : t.entry? base = some e) :
      t'.entry? base' = some e := by
    have hiff := h.same [] e he
    rw [List.append_nil, List.append_nil] at hiff
    exact hiff.2 hbase
  obtain ⟨d, hd, hkind⟩ := (FileTree.isDirectory_iff h.located).1 h.directory
  obtain rfl | rfl := d.eq_directory_or hkind
  · exact .inl ⟨hd, hsame _ (by simp) hd⟩
  · exact .inr ⟨hd, hsame _ (by simp) hd⟩

omit ht ht' in
theorem directory' : t'.isDirectory root' := by
  rw [FileTree.isDirectory_iff h.located']
  rcases h.entry_cases with ⟨-, h'⟩ | ⟨-, h'⟩
  · exact ⟨_, h', rfl⟩
  · exact ⟨_, h', rfl⟩

omit ht ht' in
theorem entry_iff {names : Location} {e : Entry} {name : RawText}
    (hname : fileNameBelow? (names, e) = some name) :
    t'.entry? (base' ++ names) = some e ↔ t.entry? (base ++ names) = some e := by
  obtain ⟨-, hlink⟩ := isFile_of_fileNameBelow? hname
  exact h.same names e hlink

theorem contractsBelow_perm : (contractsBelow g t' base').Perm (contractsBelow g t base) := by
  have hnodup {t : FileTree} (ht : t.IsSound) (base : Location) :
      (contractsBelow g t base).Nodup := by
    apply List.pairwise_map.2
    exact (ht.pairwise_below base).filter _
  refine (List.perm_ext_iff_of_nodup (hnodup ht'.toIsSound base')
    (hnodup ht.toIsSound base)).2 fun names => ?_
  rw [mem_contractsBelow ht.toIsSound, mem_contractsBelow ht'.toIsSound]
  refine and_congr_right fun hne => exists_congr fun e => ?_
  constructor
  · rintro ⟨he, name, hname, hfits⟩
    exact ⟨(h.entry_iff hname).1 he, name, hname, hfits⟩
  · rintro ⟨he, name, hname, hfits⟩
    exact ⟨(h.entry_iff hname).2 he, name, hname, hfits⟩

theorem documents_eq : DocumentationPresence.ofNames ((t'.below base').filterMap fileNameBelow?) =
    .ofNames ((t.below base).filterMap fileNameBelow?) := by
  apply DocumentationPresence.ofNames_congr
  intro name
  simp only [List.mem_filterMap, Prod.exists, ht.mem_below_iff_entry, ht'.mem_below_iff_entry]
  refine exists_congr fun names => exists_congr fun e => ?_
  constructor
  · rintro ⟨⟨hne, he⟩, hname⟩
    exact ⟨⟨hne, (h.entry_iff hname).1 he⟩, hname⟩
  · rintro ⟨⟨hne, he⟩, hname⟩
    exact ⟨⟨hne, (h.entry_iff hname).2 he⟩, hname⟩

/-- the walks through both end with errors, or both come to everything -/
theorem walk_cases :
    (∃ e e', t.walk root = .error e ∧ t'.walk root' = .error e') ∨
    ∃ e e', ¬ e.isFile ∧ ¬ e'.isFile ∧ t.entry? base = some .directory ∧
      t'.entry? base' = some .directory ∧
      t.walk root = .ok ((root, e) :: t.pathsBelow root base) ∧
      t'.walk root' = .ok ((root', e') :: t'.pathsBelow root' base') := by
  rcases h.entry_cases with ⟨hlocked, hlocked'⟩ | ⟨hbase, hbase'⟩
  · exact .inl ⟨_, _, FileTree.walk_of_lockedDirectory h.located hlocked,
      FileTree.walk_of_lockedDirectory h.located' hlocked'⟩
  obtain ⟨e, he, hwalk⟩ := FileTree.exists_walk_of_directory h.located hbase
  obtain ⟨e', he', hwalk'⟩ := FileTree.exists_walk_of_directory h.located' hbase'
  -- the walks need not stop at the same entry, since their entries are in different orders
  have hfind : ((t'.pathsBelow root' base').find? FileTree.cannotOpen).isSome =
      ((t.pathsBelow root base).find? FileTree.cannotOpen).isSome := by
    rw [Bool.eq_iff_iff, List.find?_isSome, List.find?_isSome,
      exists_cannotOpen_iff ht.toIsSound, exists_cannotOpen_iff ht'.toIsSound]
    refine exists_congr fun names => and_congr_right fun hne => ?_
    rw [h.same names .directory (by simp), h.same names .lockedDirectory (by simp)]
    refine or_congr_right (and_congr_right fun hdirectory => ?_)
    rw [h.long names .directory hdirectory (.inl rfl)]
  cases hx : (t.pathsBelow root base).find? FileTree.cannotOpen with
  | none =>
    rw [hx, Option.isSome_none, Option.isSome_eq_false_iff, Option.isNone_iff_eq_none] at hfind
    rw [hx] at hwalk
    rw [hfind] at hwalk'
    exact .inr ⟨e, e', he, he', hbase, hbase', hwalk, hwalk'⟩
  | some x =>
    rw [hx, Option.isSome_some, Option.isSome_iff_exists] at hfind
    obtain ⟨x', hx'⟩ := hfind
    rw [hx] at hwalk
    rw [hx'] at hwalk'
    exact .inl ⟨_, _, hwalk, hwalk'⟩

theorem readText_eq (hg : Glob.parse pattern = .ok g) (hbase : t.entry? base = some .directory)
    (hbase' : t'.entry? base' = some .directory) {names : Location}
    (hnames : names ∈ contractsBelow g t base) :
    t'.readText (FileTree.pathBelow root' names) = t.readText (FileTree.pathBelow root names) := by
  obtain ⟨hne, e, he, name, hname, hfits⟩ := (mem_contractsBelow ht.toIsSound).1 hnames
  obtain ⟨hfile, -⟩ := isFile_of_fileNameBelow? hname
  have hbelow := ht.mem_below_iff_entry.2 ⟨hne, he⟩
  have hbelow' := ht'.mem_below_iff_entry.2 ⟨hne, (h.entry_iff hname).2 he⟩
  exact FileTree.readText_pathBelow_congr h.located h.located' (ht.isName_of_mem_below hbelow)
    ((ht.mem_below_iff_reaches hbase).1 hbelow).2
    ((ht'.mem_below_iff_reaches hbase').1 hbelow').2 hfile
    (h.long names e he (.inr ⟨name, hname, g, hg, hfits⟩))

theorem toOption_auditOutcome_eq : (auditOutcome t' root' pattern).toOption =
    (auditOutcome t root pattern).toOption := by
  cases hg : Glob.parse pattern with
  | error e => rw [auditOutcome_of_parse_error hg, auditOutcome_of_parse_error hg]
  | ok g =>
    have hroot := FileTree.pathExists_of_isDirectory h.directory
    have hroot' := FileTree.pathExists_of_isDirectory h.directory'
    rcases h.walk_cases ht ht' with
      ⟨e, e', hwalk, hwalk'⟩ | ⟨e, e', he, he', hbase, hbase', hwalk, hwalk'⟩
    · rw [auditOutcome_of_walk_error hg hroot hwalk, auditOutcome_of_walk_error hg hroot' hwalk']
      rfl
    · have htext := FileTree.not_isEmpty_of_locate h.located
      have htext' := FileTree.not_isEmpty_of_locate h.located'
      apply toOption_auditOutcome_congr hg hroot hroot' hwalk hwalk'
      · rw [contracts_eq_map ht.toIsSound htext he, contracts_eq_map ht'.toIsSound htext' he',
          sortNames_congr (h.contractsBelow_perm ht ht'), List.map_map, List.map_map]
        apply List.map_congr_left
        intro names hnames
        exact h.readText_eq ht ht' hg hbase hbase' ((List.mergeSort_perm _ _).mem_iff.1 hnames)
      · rw [filterMap_walkedFileName? ht.toIsSound htext he,
          filterMap_walkedFileName? ht'.toIsSound htext' he', h.documents_eq ht ht']

/-- both walks end with errors, or the same names lead to the contracts of both, where the same is
found -/
theorem discover_cases :
    (∃ e e', discover t root pattern = .error e ∧ discover t' root' pattern = .error e') ∨
    ∃ (ls : List Location) (parts : List (Location × List Finding)),
      discover t root pattern = .ok (ls.map (FileTree.pathBelow root)) ∧
      discover t' root' pattern = .ok (ls.map (FileTree.pathBelow root')) ∧
      scanFiles t (ls.map (FileTree.pathBelow root)) = .below root parts ∧
      scanFiles t' (ls.map (FileTree.pathBelow root')) = .below root' parts := by
  cases hg : Glob.parse pattern with
  | error e => exact .inl ⟨_, _, discover_of_parse_error hg, discover_of_parse_error hg⟩
  | ok g =>
    have hroot := FileTree.pathExists_of_isDirectory h.directory
    have hroot' := FileTree.pathExists_of_isDirectory h.directory'
    rcases h.walk_cases ht ht' with
      ⟨e, e', hwalk, hwalk'⟩ | ⟨e, e', he, he', hbase, hbase', hwalk, hwalk'⟩
    · exact .inl ⟨_, _, discover_of_walk_error hg hroot hwalk,
        discover_of_walk_error hg hroot' hwalk'⟩
    · have hcontracts : contracts g ((root, e) :: t.pathsBelow root base) = _ :=
        contracts_eq_map ht.toIsSound (FileTree.not_isEmpty_of_locate h.located) he
      have hcontracts' : contracts g ((root', e') :: t'.pathsBelow root' base') = _ :=
        contracts_eq_map ht'.toIsSound (FileTree.not_isEmpty_of_locate h.located') he'
      rw [sortNames_congr (h.contractsBelow_perm ht ht')] at hcontracts'
      have hincreases := ht.increases_contracts hwalk g
      have hincreases' := ht'.increases_contracts hwalk' g
      refine .inr ⟨sortNames (contractsBelow g t base), partsBelow t root
        (sortNames (contractsBelow g t base)), ?_, ?_, ?_, ?_⟩
      · rw [discover_of_walk hg hroot hwalk, hcontracts]
      · rw [discover_of_walk hg hroot' hwalk', hcontracts']
      · rw [hcontracts] at hincreases
        rw [scanFiles_of_increases hincreases, scannedParts_map]
      · rw [hcontracts'] at hincreases'
        rw [scanFiles_of_increases hincreases', scannedParts_map]
        congr 1
        unfold partsBelow
        congr 1
        apply List.map_congr_left
        intro names hnames
        have hmem := (List.mergeSort_perm _ _).mem_iff.1 hnames
        have hread := h.readText_eq ht ht' hg hbase hbase' hmem
        rw [scanFile_congr hread]

end

end SameProjects

/-! ## all together -/

/-- **Audits and scans see nothing but what is below the root.**  Two audits with one pattern say
the same of equal projects, whatever their levels.  Scans of them both end with errors, or find the
same in the files that the same names lead to, and sum it up in the same way. -/
theorem equal_trees {pattern : String} {t t' : FileTree} (ht : t.IsRooted) (ht' : t'.IsRooted)
    {root root' : Path} {base base' : Location}
    (h : SameProjects pattern t' root' base' t root base) :
    (∀ level level' period period', (comprehensiveAudit t' root' pattern level' period').Agrees
      (comprehensiveAudit t root pattern level period)) ∧
    ((∃ e e', scanDirectory t root pattern = .error e ∧
        scanDirectory t' root' pattern = .error e') ∨
      ∃ parts, scanDirectory t root pattern = .ok (.below root parts) ∧
        scanDirectory t' root' pattern = .ok (.below root' parts)) ∧
    ∀ (o o' : ScanOptions) (config config' : Config),
      Config.loadFor t root o.config = .ok config →
      Config.loadFor t' root' o'.config = .ok config' →
      o.pattern.getD config.pattern = pattern → o'.pattern.getD config'.pattern = pattern →
      (∃ e e', scan t root o = .error e ∧ scan t' root' o' = .error e') ∨
      ∃ brought brought', scan t root o = .ok brought ∧ scan t' root' o' = .ok brought' ∧
        ScanOutput.AgreesBelow root' brought' root brought := by
  refine ⟨fun level level' period period' => ?_, ?_, ?_⟩
  · exact agrees_comprehensiveAudit (h.toOption_auditOutcome_eq ht ht') level level' period period'
  · unfold scanDirectory
    rcases h.discover_cases ht ht' with
      ⟨e, e', hfiles, hfiles'⟩ | ⟨ls, parts, hfiles, hfiles', hscanned, hscanned'⟩
    · rw [hfiles, hfiles']
      exact .inl ⟨e, e', rfl, rfl⟩
    · rw [hfiles, hfiles']
      refine .inr ⟨parts, ?_, ?_⟩
      · exact congrArg Except.ok hscanned
      · exact congrArg Except.ok hscanned'
  · intro o o' config config' hload hload' hpattern hpattern'
    rw [scan_of_loadFor hload h.directory, scan_of_loadFor hload' h.directory', hpattern, hpattern']
    rcases h.discover_cases ht ht' with
      ⟨e, e', hfiles, hfiles'⟩ | ⟨ls, parts, hfiles, hfiles', hscanned, hscanned'⟩
    · rw [hfiles, hfiles']
      exact .inl ⟨e, e', rfl, rfl⟩
    · rw [hfiles, hfiles']
      refine .inr ⟨_, _, rfl, rfl, agreesBelow_ofFiles hscanned hscanned' ?_⟩
      rw [List.length_map, List.length_map]

theorem contracts_eq_pair {g : Glob.Pattern} {entries : List (Path × Entry)} {p q : Path}
    (h : (entries.filter (isContract g)).map (·.1) = [q, p]) (hpq : compare p q = .lt) :
    contracts g entries = [p, q] := by
  have hne : q.components ≠ p.components := fun hsame => by
    rw [Path.compare_eq_iff.2 hsame.symm] at hpq
    cases hpq
  have hpair : [q, p].Pairwise fun a b => a.components ≠ b.components := by simpa using hne
  unfold contracts
  rw [h]
  have hperm := (sortPaths_perm [q, p]).trans (.swap p q [])
  refine Ordered.eq_of_perm id (increases_sortPaths hpair) ?_ hperm
  simpa using hpq

/-- A project in one tree, and the same project deeper in another one.  What is in the directory
comes first, although a text with a dash would come before one with a slash. -/
theorem equal_trees_of_copied_project :
    let content : Entry := .file "function f() public\nnow".toUTF8
    let t : FileTree :=
      ⟨[(["p"], .directory), (["p", "a-b"], .file "now".toUTF8), (["p", "a"], .directory),
        (["p", "a", "b"], content)], []⟩
    let t' : FileTree :=
      ⟨[(["q"], .directory), (["q", "r"], .directory), (["q", "r", "a"], .directory),
        (["q", "r", "a", "b"], content), (["q", "r", "a-b"], .file "now".toUTF8)], []⟩
    let root : Path := ⟨"p"⟩
    let root' : Path := ⟨"/q/r"⟩
    let o : ScanOptions := ⟨some ⟨"c"⟩, some "*b"⟩
    SameProjects "*b" t' root' ["q", "r"] t root ["p"] ∧
    (∀ level level' period period',
      (comprehensiveAudit t' root' "*b" level' period').Agrees
        (comprehensiveAudit t root "*b" level period)) ∧
    (∀ level period, (comprehensiveAudit t root "*b" level period).findings.map
      (fun f => (f.ruleId, f.lineNumber)) =
        [("OMEGA-003", 1), ("OMEGA-005", 2), ("OMEGA-005", 1)]) ∧
    ∃ brought brought', scan t root o = .ok brought ∧ scan t' root' o = .ok brought' ∧
      ScanOutput.AgreesBelow root' brought' root brought := by
  intro content t t' root root' o
  have ht : t.IsRooted := by decide
  have ht' : t'.IsRooted := by decide
  have hbase : t.locate .followed root = .ok ["p"] := by cbv
  have hbase' : t'.locate .followed root' = .ok ["q", "r"] := by cbv
  have hbelow : t.below ["p"] = ([(["a-b"], .file "now".toUTF8), (["a"], .directory),
    (["a", "b"], content)] : List (Location × Entry)) := by cbv
  have hbelow' : t'.below ["q", "r"] = ([(["a"], .directory), (["a", "b"], content),
    (["a-b"], .file "now".toUTF8)] : List (Location × Entry)) := by cbv
  have hdirectory : t.isDirectory root := (FileTree.isDirectory_iff hbase).2 ⟨_, rfl, rfl⟩
  have hprojects : SameProjects "*b" t' root' ["q", "r"] t root ["p"] := by
    refine ⟨hbase, hbase', hdirectory, ht.sameBelow_of_perm ht'.toIsSound rfl ?_, ?_⟩
    · rw [hbelow, hbelow']
      exact @List.perm_middle _ _ [_, _] []
    · intro names e he _
      have hshort : ∀ names ∈ ([[], ["a-b"], ["a"], ["a", "b"]] : List Location),
          FileTree.isTooLong (FileTree.pathBelow root' names) =
            FileTree.isTooLong (FileTree.pathBelow root names) := by decide +kernel
      refine hshort names ?_
      by_cases hne : names = []
      · exact hne ▸ List.mem_cons_self
      · have hmem := List.mem_map_of_mem (f := Prod.fst) (ht.mem_below_iff_entry.2 ⟨hne, he⟩)
        rw [hbelow] at hmem
        exact List.mem_cons_of_mem _ hmem
  obtain ⟨haudits, -, hscans⟩ := equal_trees ht ht' hprojects
  have hg : Glob.parse "*b" = .ok ⟨[.anySequence, .char 'b']⟩ := by cbv
  have hwalk : t.walk root = .ok ((root, .directory) :: t.pathsBelow root ["p"]) :=
    FileTree.walk_of_directory (by cbv) rfl hbase rfl (by decide)
  have hcontracts : contracts ⟨[.anySequence, .char 'b']⟩
      ((root, .directory) :: t.pathsBelow root ["p"]) = [⟨"p/a/b"⟩, ⟨"p/a-b"⟩] :=
    contracts_eq_pair (by decide +kernel) (by decide +kernel)
  refine ⟨hprojects, haudits, fun level period => ?_, ?_⟩
  · let text (file : Path) : String :=
      if file = ⟨"p/a-b"⟩ then "now" else "function f() public\nnow"
    have htext : ∀ file ∈ contracts ⟨[.anySequence, .char 'b']⟩
        ((root, .directory) :: t.pathsBelow root ["p"]), t.readText file = .ok (text file) := by
      rw [hcontracts, List.forall_mem_cons, List.forall_mem_singleton]
      constructor
      · exact FileTree.readText_of_readBytes_toUTF8 (FileTree.readBytes_of_file (by cbv) rfl)
      · exact FileTree.readText_of_readBytes_toUTF8 (FileTree.readBytes_of_file (by cbv) rfl)
    obtain ⟨metrics, -, houtcome⟩ := auditOutcome_of_readable hg hwalk
      (fun hnil => by rw [← contracts_eq_nil_iff, hcontracts] at hnil; cases hnil) htext
    rw [findings_comprehensiveAudit level period houtcome, hcontracts]
    decide +kernel
  have hload : Config.loadFor t root o.config = .ok .default := loadFor_of_missing (by cbv)
  have hload' : Config.loadFor t' root' o.config = .ok .default := loadFor_of_missing (by cbv)
  have hpattern : o.pattern.getD Config.default.pattern = "*b" := rfl
  obtain ⟨e, -, hscan, -⟩ | hscans := hscans o o _ _ hload hload' hpattern hpattern
  · have hfiles := discover_of_walk hg (FileTree.pathExists_of_isDirectory hdirectory) hwalk
    rw [scan_of_loadFor hload hdirectory, hpattern, hfiles] at hscan
    cases hscan
  · exact hscans

/-- One project by a short path and by one with many dots, which makes that of its directory too
long.  And two projects of the same directories, one of which is closed in one of them. -/
theorem equal_trees_too_deep_or_closed :
    let t : FileTree := ⟨[(["d"], .directory), (["d", "d"], .directory)], []⟩
    let t' : FileTree := ⟨[(["d"], .directory), (["d", "d"], .lockedDirectory)], []⟩
    let root : Path := Path.afterDots 2047 ⟨"d"⟩
    let period : AuditPeriod := ⟨⟨1709208000, 0⟩, ⟨1709208060, 0⟩⟩
    t.IsRooted ∧ t'.IsRooted ∧ t.locate .followed ⟨"d"⟩ = .ok ["d"] ∧
      t.locate .followed root = .ok ["d"] ∧ t'.locate .followed ⟨"d"⟩ = .ok ["d"] ∧
      t.entry? ["d"] = some .directory ∧ t.SameBelow ["d"] t ["d"] ∧
      t'.entries.map (fun x => (x.1, x.2.isDirectory)) =
        t.entries.map (fun x => (x.1, x.2.isDirectory)) ∧
      (comprehensiveAudit t ⟨"d"⟩ "b" .standard period).status = .completed ∧
      (comprehensiveAudit t root "b" .standard period).status = .failed ∧
      (comprehensiveAudit t' ⟨"d"⟩ "b" .standard period).status = .failed := by
  intro t t' root period
  have ht : t.IsRooted := by decide
  have ht' : t'.IsRooted := by decide
  have hparse : Glob.parse "b" = .ok ⟨[.char 'b']⟩ := by cbv
  have hbase : t.locate .followed ⟨"d"⟩ = .ok ["d"] := by cbv
  have hbase' : t'.locate .followed ⟨"d"⟩ = .ok ["d"] := by cbv
  -- the dots lead nowhere
  have hdots : t.locate .followed root = .ok ["d"] := by
    rw [FileTree.locate_afterDots (by decide) (by decide) (by decide), hbase]
  have hcannot : FileTree.cannotOpen (FileTree.pathBelow root ["d"], .directory) :=
    FileTree.cannotOpen_afterDots (by decide) (by decide) (by decide)
  refine ⟨ht, ht', hbase, hdots, hbase', rfl, fun _ _ _ => Iff.rfl, rfl, ?_, ?_, ?_⟩
  · exact status_of_no_contracts hparse hbase rfl (by decide +kernel) (by decide +kernel)
  · exact status_of_cannotOpen hparse hdots rfl (List.cons_ne_nil _ _)
      (List.mem_cons_of_mem _ List.mem_cons_self) hcannot
  · exact status_of_cannotOpen hparse hbase' rfl (List.cons_ne_nil _ [])
      (List.mem_cons_of_mem _ List.mem_cons_self) rfl

end ContractAudit
