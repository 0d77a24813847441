import ContractAudit.Proofs.AuditIds
import ContractAudit.Proofs.AuditReports

/-!
# Audits of projects that hold reports

The reports of audits may be kept in the project itself.  They are neither contracts nor documents,
and so the next audit says what the last one said.

* `FileTree.IsQuiet g x`: an audit does not see the entry `x`.
* `auditOutcome_adding`: entries that it does not see make no difference to an audit.
* `AuditReport.exists_adding_of_save`: keeping a report adds such entries and nothing else.
* `SavedReports pattern t t'`: the reports that make `t'` out of `t`.

The main statement is `repeated_audits`.
-/

namespace ContractAudit

/-! ## entries that an audit does not see -/

namespace FileTree

/-- a directory, or a file that is neither a contract nor a document -/
def IsQuiet (g : Glob.Pattern) (x : Location × Entry) : Prop :=
  x.2 = .directory ∨ x.2.isFile ∧ ∃ name, x.1.getLast? = some name ∧ IsName name ∧
    ¬ g.matchesName name.text ∧ DocumentationPresence.ofName name = .none

section
variable {t : FileTree} {root : Path} {base names : Location} {e : Entry} {g : Glob.Pattern}
  {added : List (Location × Entry)}

theorem fileName?_pathBelow_of_getLast? (hroot : ¬ root.raw.isEmpty) {name : RawText}
    (hlast : names.getLast? = some name) (hname : IsName name) :
    (pathBelow root names).fileName? = some name := by
  obtain ⟨above, rfl⟩ := List.getLast?_eq_some_iff.1 hlast
  have hpath : pathBelow root (above ++ [name]) = (pathBelow root above).join ⟨name⟩ := by
    unfold pathBelow
    rw [List.foldl_append]
    rfl
  unfold Path.fileName?
  rw [hpath, Path.components_join (not_isEmpty_pathBelow hroot above) hname,
    List.getLast?_concat]

theorem IsQuiet.ne_link {x : Location × Entry} (h : IsQuiet g x) (target : RawText) :
    x.2 ≠ .link target := by
  intro hlink
  rcases h with hdirectory | ⟨hfile, -⟩
  · rw [hdirectory] at hlink
    cases hlink
  · rw [hlink] at hfile
    cases hfile

/-- on a walk a quiet entry is neither a contract nor a document -/
theorem IsQuiet.onWalk (hroot : ¬ root.raw.isEmpty) (hne : names ≠ [])
    (h : IsQuiet g (base ++ names, e)) :
    ¬ isContract g (pathBelow root names, e) ∧
      ∀ name, walkedFileName? (pathBelow root names, e) = some name →
        DocumentationPresence.ofName name = .none := by
  rcases h with hdirectory | ⟨-, name, hlast, hname, hfits, hdocument⟩
  · have hdirectory : e = .directory := hdirectory
    subst hdirectory
    exact ⟨Bool.false_ne_true, fun name hwalked => nomatch hwalked⟩
  · have hlast : names.getLast? = some name := by
      rwa [List.getLast?_append_of_ne_nil _ hne] at hlast
    have hfile := fileName?_pathBelow_of_getLast? hroot hlast hname
    refine ⟨fun hcontract => hfits ?_, fun name' hwalked => ?_⟩
    · obtain ⟨-, name', hfile', hfits'⟩ := isContract_iff.1 hcontract
      rwa [Option.some.inj (hfile.symm.trans hfile')]
    · obtain ⟨-, hname'⟩ := walkedFileName?_eq_some_iff.1 hwalked
      rwa [← Option.some.inj (hfile.symm.trans hname')]

/-- more entries come behind those that are there -/
theorem exists_pathsBelow_adding (t : FileTree) (added : List (Location × Entry)) (root : Path)
    (base : Location) : ∃ more,
      (t.adding added).pathsBelow root base = t.pathsBelow root base ++ more ∧
      ∀ x ∈ more, ∃ names e, names ≠ [] ∧ (base ++ names, e) ∈ added ∧
        x = (pathBelow root names, e) := by
  let rest : FileTree := ⟨added, []⟩
  refine ⟨rest.pathsBelow root base, ?_, fun x hx => ?_⟩
  · unfold pathsBelow below adding
    rw [List.filterMap_append, List.map_append]
  · obtain ⟨y, hy, rfl⟩ := List.mem_map.1 hx
    obtain ⟨hne, hmem⟩ := mem_below_iff.1 hy
    exact ⟨y.1, y.2, hne, hmem, rfl⟩

section
variable (hlink : ∀ x ∈ added, ∀ target, x.2 ≠ .link target)
include hlink

/-- a walk goes on to what was added, if nothing that was added keeps it from doing so -/
theorem walk_adding (hbase : t.locate .followed root = .ok base) (he : t.entry? base = some e)
    (hopen : ∀ x ∈ (t.adding added).pathsBelow root base, cannotOpen x →
      x ∈ t.pathsBelow root base) :
    (∃ e, t.walk root = .error e ∧ (t.adding added).walk root = .error e) ∨
      ∃ entries more, t.walk root = .ok entries ∧
        (t.adding added).walk root = .ok (entries ++ more) ∧
        ∀ x ∈ more, ∃ names e, names ≠ [] ∧ (base ++ names, e) ∈ added ∧
          x = (pathBelow root names, e) := by
  have hkeeps : (t.adding added).Keeps t := keeps_adding hlink
  obtain ⟨l, e', hl, he', -⟩ := exists_asItIs_of_followed hbase he
  have hbase' := locate_of_keeps hkeeps hbase
  have hdirectory : (t.adding added).isDirectory root ↔ t.isDirectory root := by
    rw [isDirectory_iff hbase, isDirectory_iff hbase', entry_adding_of_some he, he]
  rw [walk_of_locate hl he' hbase,
    walk_of_locate (locate_of_keeps hkeeps hl) (entry_adding_of_some he') hbase']
  simp only [hdirectory]
  split
  · rename_i hthere
    obtain ⟨d, hd, hkind⟩ := (isDirectory_iff hbase).1 hthere
    obtain rfl := Option.some.inj (he.symm.trans hd)
    have hadding : FileTree.entry? (t.adding added) base = some e := entry_adding_of_some he
    obtain rfl | rfl := e.eq_directory_or hkind
    · exact .inl ⟨_, walkThrough_of_lockedDirectory he _, walkThrough_of_lockedDirectory hadding _⟩
    obtain ⟨more, hmore, hadded⟩ := exists_pathsBelow_adding t added root base
    rw [walkThrough_of_directory he, walkThrough_of_directory hadding, hmore, List.find?_append]
    cases hfind : (t.pathsBelow root base).find? cannotOpen with
    | some x => exact .inl ⟨_, rfl, rfl⟩
    | none =>
      -- nothing old keeps the walk from going on, and `hopen` says that nothing new does
      have hnone : more.find? cannotOpen = none := by
        rw [List.find?_eq_none] at hfind ⊢
        intro x hx hcannot
        refine hfind x (hopen x ?_ hcannot) hcannot
        rw [hmore]
        exact List.mem_append_right _ hx
      rw [hnone]
      exact .inr ⟨_, more, rfl, rfl, hadded⟩
  · exact .inr ⟨_, [], rfl, by rw [List.append_nil], List.forall_mem_nil _⟩

/-- files that a walk comes to are read as before -/
theorem readText_adding (ht : t.IsRooted) {entries : List (Path × Entry)}
    (hwalk : t.walk root = .ok entries) {x : Path × Entry} (hx : x ∈ entries) (hfile : x.2.isFile) :
    (t.adding added).readText x.1 = t.readText x.1 := by
  have hkeeps : (t.adding added).Keeps t := keeps_adding hlink
  obtain ⟨l, e, base, hl, he, hbase, hmem⟩ := mem_of_walk hwalk
  rcases (hmem x).1 hx with rfl | ⟨hdirectory, hbelow⟩
  · have hfollowed : t.locate .followed root = .ok l :=
      locate_followed_of_asItIs hl fun target hlink => by
        rw [he] at hlink
        rw [Option.some.inj hlink] at hfile
        cases hfile
    exact readText_congr (locate_of_keeps hkeeps hfollowed) hfollowed
      ((entry_adding_of_some he).trans he.symm)
  · obtain ⟨⟨names, e⟩, hy, rfl⟩ := List.mem_map.1 hbelow
    obtain ⟨-, hreaches⟩ := (ht.mem_below_iff_reaches hdirectory).1 hy
    exact readText_pathBelow_congr hbase (locate_of_keeps hkeeps hbase)
      (ht.isName_of_mem_below hy) hreaches (hreaches.mono fun _ _ => entry_adding_of_some) hfile rfl

end

end

end FileTree

/-! ## audits -/

namespace DocumentationPresence

theorem or_none (p : DocumentationPresence) : p.or none = p := by
  cases p
  simp [or, none]

theorem ofNames_cons (name : RawText) (names : List RawText) :
    ofNames (name :: names) = (ofName name).or (ofNames names) := by
  have hfoldl (p : DocumentationPresence) (ps : List DocumentationPresence) :
      ps.foldl or p = p.or (ps.foldl or none) := by
    induction ps generalizing p with
    | nil => exact (or_none p).symm
    | cons q ps ih =>
      rw [List.foldl_cons, List.foldl_cons, ih, ih (none.or q)]
      simp [or, none, Bool.or_assoc]
  unfold ofNames
  rw [List.map_cons, List.foldl_cons, hfoldl]
  simp [or, none]

/-- there is a document if one of the names is that of such a document -/
theorem ofNames_eq (names : List RawText) : ofNames names =
    ⟨names.any fun n => (ofName n).readme, names.any fun n => (ofName n).apiDocs,
      names.any fun n => (ofName n).securityDocs⟩ := by
  induction names with
  | nil => rfl
  | cons name names ih =>
    rw [ofNames_cons, ih]
    rfl

theorem ofNames_congr {names names' : List RawText} (h : ∀ name, name ∈ names' ↔ name ∈ names) :
    ofNames names' = ofNames names := by
  have hany (f : RawText → Bool) : names'.any f = names.any f := by
    rw [Bool.eq_iff_iff, List.any_eq_true, List.any_eq_true]
    simp only [h]
  rw [ofNames_eq, ofNames_eq, hany, hany, hany]

theorem ofNames_append (names more : List RawText) :
    ofNames (names ++ more) = (ofNames names).or (ofNames more) := by
  rw [ofNames_eq, ofNames_eq, ofNames_eq]
  simp only [List.any_append]
  rfl

theorem ofNames_append_of_none {names more : List RawText}
    (h : ∀ name ∈ more, ofName name = none) : ofNames (names ++ more) = ofNames names := by
  have hmore : ofNames more = none := by
    induction more with
    | nil => rfl
    | cons name more ih =>
      obtain ⟨hname, hmore⟩ := List.forall_mem_cons.1 h
      rw [ofNames_cons, hname, ih hmore, or_none]
  rw [ofNames_append, hmore, or_none]

end DocumentationPresence

theorem contracts_append {g : Glob.Pattern} {entries more : List (Path × Entry)}
    (h : ∀ x ∈ more, ¬ isContract g x) : contracts g (entries ++ more) = contracts g entries := by
  have hmore : more.filter (isContract g) = [] := List.filter_eq_nil_iff.2 h
  unfold contracts
  rw [List.filter_append, hmore, List.append_nil]

section
variable {t : FileTree} {root : Path} {pattern : String} {added : List (Location × Entry)}

/-- entries that an audit does not see make no difference to it, unless they cannot be opened -/
theorem auditOutcome_adding (ht : t.IsRooted) (hroot : t.pathExists root)
    (hquiet : ∀ g, Glob.parse pattern = .ok g → ∀ x ∈ added, FileTree.IsQuiet g x)
    (hopen : ∀ base, t.locate .followed root = .ok base →
      ∀ x ∈ (t.adding added).pathsBelow root base, FileTree.cannotOpen x →
        x ∈ t.pathsBelow root base) :
    (auditOutcome (t.adding added) root pattern).toOption =
      (auditOutcome t root pattern).toOption := by
  cases hg : Glob.parse pattern with
  | error e => rw [auditOutcome_of_parse_error hg, auditOutcome_of_parse_error hg]
  | ok g =>
    have hlink : ∀ x ∈ added, ∀ target, x.2 ≠ .link target := fun x hx => (hquiet g hg x hx).ne_link
    obtain ⟨base, e, hbase, he⟩ := FileTree.exists_entry_of_pathExists hroot
    have hroot' := FileTree.pathExists_of_entry
      (FileTree.locate_of_keeps (FileTree.keeps_adding hlink) hbase)
      (FileTree.entry_adding_of_some he)
    rcases FileTree.walk_adding hlink hbase he (hopen base hbase) with
      ⟨e, hwalk, hwalk'⟩ | ⟨entries, more, hwalk, hwalk', hmore⟩
    · rw [auditOutcome_of_walk_error hg hroot hwalk, auditOutcome_of_walk_error hg hroot' hwalk']
    · have hseen : ∀ x ∈ more, ¬ isContract g x ∧ ∀ name, walkedFileName? x = some name →
          DocumentationPresence.ofName name = .none := by
        intro x hx
        obtain ⟨names, e, hne, hmem, rfl⟩ := hmore x hx
        exact (hquiet g hg _ hmem).onWalk (FileTree.not_isEmpty_of_locate hbase) hne
      have hcontracts : contracts g (entries ++ more) = contracts g entries :=
        contracts_append fun x hx => (hseen x hx).1
      apply toOption_auditOutcome_congr hg hroot hroot' hwalk hwalk'
      · rw [hcontracts]
        apply List.map_congr_left
        intro file hfile
        obtain ⟨x, hx, rfl⟩ := mem_contracts.1 hfile
        obtain ⟨hx, hcontract⟩ := List.mem_filter.1 hx
        exact FileTree.readText_adding hlink ht hwalk hx (isContract_iff.1 hcontract).1
      · rw [List.filterMap_append]
        apply DocumentationPresence.ofNames_append_of_none
        intro name hname
        obtain ⟨x, hx, hwalked⟩ := List.mem_filterMap.1 hname
        exact (hseen x hx).2 name hwalked

end

/-! ## directories that cannot be opened -/

section
variable {t : FileTree} {root : Path} {base : Location} {pattern : String} {g : Glob.Pattern}
  {level : AuditLevel} {period : AuditPeriod}
  (hg : Glob.parse pattern = .ok g) (hbase : t.locate .followed root = .ok base)
  (he : t.entry? base = some .directory)
include hg hbase he

theorem status_of_no_contracts (hopen : ∀ x ∈ t.pathsBelow root base, ¬ FileTree.cannotOpen x)
    (hnone : ∀ x ∈ t.pathsBelow root base, ¬ isContract g x) :
    (comprehensiveAudit t root pattern level period).status = .completed := by
  obtain ⟨e, hfile, hwalk⟩ := FileTree.exists_walk_of_directory hbase he
  rw [List.find?_eq_none.2 hopen] at hwalk
  have hroot : ¬ isContract g (root, e) := fun hcontract => hfile (isContract_iff.1 hcontract).1
  refine (comprehensiveAudit_of_none level period
    (auditOutcome_of_no_contracts hg (.inr ⟨_, hwalk, ?_⟩))).status
  exact List.filter_eq_nil_iff.2 (List.forall_mem_cons.2 ⟨hroot, hnone⟩)

theorem status_of_cannotOpen {names : Location} {d : Entry} (hne : names ≠ [])
    (hmem : (base ++ names, d) ∈ t.entries)
    (hcannot : FileTree.cannotOpen (FileTree.pathBelow root names, d)) :
    (comprehensiveAudit t root pattern level period).status = .failed := by
  obtain ⟨e, -, hwalk⟩ := FileTree.exists_walk_of_directory hbase he
  have hbelow : (FileTree.pathBelow root names, d) ∈ t.pathsBelow root base :=
    List.mem_map.2 ⟨(names, d), FileTree.mem_below_iff.2 ⟨hne, hmem⟩, rfl⟩
  cases hfind : (t.pathsBelow root base).find? FileTree.cannotOpen with
  | none => exact absurd hcannot (List.find?_eq_none.1 hfind _ hbelow)
  | some x =>
    rw [hfind] at hwalk
    exact (comprehensiveAudit_of_error level period (auditOutcome_of_walk_error hg
      (FileTree.pathExists_of_entry hbase he) hwalk)).status

end

/-! ## keeping reports -/

namespace AuditReport

section
variable {t : FileTree} {r : AuditReport} {directory : Path}

/-- keeping a report where both names are free adds directories and two files -/
theorem exists_adding_of_save (hid : '/' ∉ r.auditId.toList)
    (hfree : r.HasFreeNames (t.makeDirectories directory).1 directory) {p : Path}
    (hok : (r.save t directory).2 = .ok p) :
    ∃ added, (r.save t directory).1 = t.adding added ∧ ∀ x ∈ added, x.2 = .directory ∨
      x.2.isFile ∧ (x.1.getLast? = some r.jsonName ∨ x.1.getLast? = some r.textName) := by
  obtain ⟨made, hmade, hdirectories⟩ := FileTree.addsDirectories_makeDirectories t directory
  obtain ⟨first, second, json, text, hjson, htext, hne, hfirst, hsecond, hsave⟩ :=
    exists_writes_of_saveBy FileTree.isFaithful_putText hid hfree.hasNoLinks hok
  have hnone : FileTree.entry? (t.makeDirectories directory).1 json = none :=
    FileTree.entry_eq_none_of_fresh hfirst.located (hfree _ (by simp))
  have hnone' : first.entry? text = none := by
    have hlocated := (hfirst.locate_cases hsecond.located).resolve_left hne.symm
    rw [hfirst.entry, if_neg hne.symm]
    exact FileTree.entry_eq_none_of_fresh hlocated (hfree _ (by simp))
  refine ⟨made ++ [(json, .file r.write.toUTF8)] ++ [(text, .file (Plain.audit r).toUTF8)], ?_, ?_⟩
  · unfold save
    rw [hsave, hsecond.tree, FileTree.insert_of_entry_eq_none hsecond.ne_nil hnone',
      hfirst.tree, FileTree.insert_of_entry_eq_none hfirst.ne_nil hnone, hmade,
      FileTree.adding_adding, FileTree.adding_adding, List.append_assoc]
  · intro x hx
    simp only [List.mem_append, List.mem_singleton] at hx
    rcases hx with (hx | rfl) | rfl
    · exact .inl (hdirectories x hx)
    · exact .inr ⟨rfl, .inl hjson⟩
    · exact .inr ⟨rfl, .inr htext⟩

end

end AuditReport

/-- the pattern fits the name as it is shown -/
def FitsName (pattern : String) (name : RawText) : Prop :=
  ∃ g, Glob.parse pattern = .ok g ∧ g.matchesName name.text

/-- any number of reports with ids of audits are kept, one after the other, each where its names are
free and do not fit the pattern -/
inductive SavedReports (pattern : String) (t : FileTree) : FileTree → Prop
  | none : SavedReports pattern t t
  | save {t' : FileTree} {r : AuditReport} {start : Instant} {project directory p : Path} :
      SavedReports pattern t t' → r.auditId = auditId start project →
      r.HasFreeNames (t'.makeDirectories directory).1 directory →
      ¬ FitsName pattern r.jsonName → ¬ FitsName pattern r.textName →
      (r.save t' directory).2 = .ok p → SavedReports pattern t (r.save t' directory).1

theorem SavedReports.exists_adding {pattern : String} {t t' : FileTree}
    (h : SavedReports pattern t t') : ∃ added, t' = t.adding added ∧
      ∀ g, Glob.parse pattern = .ok g → ∀ x ∈ added, FileTree.IsQuiet g x := by
  induction h with
  | none => exact ⟨[], (FileTree.adding_nil t).symm, fun g hg => List.forall_mem_nil _⟩
  | @save t' r start project directory p _ hid hfree hjson htext hok ih =>
    obtain ⟨before, hbefore, hquiet⟩ := ih
    have hslash := AuditReport.slash_not_mem_auditId hid
    obtain ⟨added, hadded, hnew⟩ := AuditReport.exists_adding_of_save hslash hfree hok
    refine ⟨before ++ added, ?_, ?_⟩
    · rw [hadded, hbefore, FileTree.adding_adding]
    · intro g hg x hx
      rcases List.mem_append.1 hx with hx | hx
      · exact hquiet g hg x hx
      · rcases hnew x hx with hdirectory | ⟨hfile, hlast | hlast⟩
        · exact .inl hdirectory
        · exact .inr ⟨hfile, _, hlast, AuditReport.isName_jsonName hslash,
            fun hfits => hjson ⟨g, hg, hfits⟩, AuditReport.ofName_jsonName r⟩
        · exact .inr ⟨hfile, _, hlast, AuditReport.isName_textName hslash,
            fun hfits => htext ⟨g, hg, hfits⟩, AuditReport.ofName_textName hid⟩

/-! ## all together -/

/-- **Audits are not disturbed by the reports of audits.**  However many of them are kept, wherever
that is, the next audit says the same about the project, unless a directory that was made for them
has too long a path from the root on. -/
theorem repeated_audits {t t' : FileTree} (ht : t.IsRooted) {root : Path} {pattern : String}
    (hroot : t.pathExists root) (hsaved : SavedReports pattern t t')
    (hopen : ∀ base, t.locate .followed root = .ok base → ∀ x ∈ t'.pathsBelow root base,
      FileTree.cannotOpen x → x ∈ t.pathsBelow root base)
    (level level' : AuditLevel) (period period' : AuditPeriod) :
    (comprehensiveAudit t' root pattern level' period').Agrees
      (comprehensiveAudit t root pattern level period) := by
  obtain ⟨added, rfl, hquiet⟩ := hsaved.exists_adding
  exact agrees_comprehensiveAudit (auditOutcome_adding ht hroot hquiet hopen) level level'
    period period'

theorem not_fitsName_of_first {name : String} (rest : List Char) (h : name.toList = 'a' :: rest) :
    ¬ FitsName "b" name := by
  have hparse : Glob.parse "b" = .ok ⟨[.char 'b']⟩ := by cbv
  have hother : Piece.matchesAll (Glob.pieces [.char 'b']) ('a' :: rest) = false := by
    show (Piece.rowBefore 'a' _ (Piece.rowOf _ rest)).headD false = false
    cases Piece.rowOf (Glob.pieces [.char 'b']) rest <;> rfl
  rintro ⟨g, hg, hfits⟩
  obtain rfl := Except.ok.inj (hparse.symm.trans hg)
  unfold Glob.Pattern.matchesName at hfits
  rw [RawText.text_ofString, h, hother] at hfits
  cases hfits

/-- a report is kept in a directory that has to be made for it -/
theorem savedReports_in_new_directory (t : FileTree) (directory : Path) (above : Location)
    {r : AuditReport} {start : Instant} {project : Path} (hid : r.auditId = auditId start project)
    (hmade : t.makeDirectories directory = (t.adding [(above, .directory)], none))
    (habove : (t.adding [(above, .directory)]).locate .followed directory = .ok above)
    (hentry : FileTree.entry? (t.adding [(above, .directory)]) above = some .directory)
    (hnone : ∀ name, FileTree.entry? (t.adding [(above, .directory)]) (above ++ [name]) = none)
    (hstamp : start.stamp.utf8ByteSize ≤ 224) (hdirectory : directory.raw.size ≤ 3839) :
    SavedReports "b" t (t.adding [(above, .directory),
      (above ++ [r.jsonName], .file r.write.toUTF8),
      (above ++ [r.textName], .file (Plain.audit r).toUTF8)]) := by
  obtain ⟨hfree, hsave⟩ := AuditReport.save_of_auditId hid hmade habove hentry (hnone _) (hnone _)
    hstamp hdirectory
  have hjson : ¬ FitsName "b" r.jsonName := by
    apply not_fitsName_of_first ("udit_report_".toList ++ r.auditId.toList ++ ".json".toList)
    rw [String.toList_append, String.toList_append]
    rfl
  have htext : ¬ FitsName "b" r.textName := by
    apply not_fitsName_of_first ("udit_report_".toList ++ r.auditId.toList ++ ".txt".toList)
    rw [String.toList_append, String.toList_append]
    rfl
  have hsaved := SavedReports.none.save hid hfree hjson htext (congrArg Prod.snd hsave)
  rw [hsave, FileTree.adding_adding] at hsaved
  exact hsaved

/-- a contract, and a report in a new directory beside it -/
theorem repeated_audits_in_project :
    let t : FileTree := ⟨[(["p"], .directory), (["p", "b"], .file .empty)], []⟩
    let root : Path := ⟨"p"⟩
    let period : AuditPeriod := ⟨⟨1709208000, 0⟩, ⟨1709208060, 0⟩⟩
    let first := comprehensiveAudit t root "b" .standard period
    ∃ t', t'.entries.length = 5 ∧ t.IsRooted ∧ t.pathExists root ∧ SavedReports "b" t t' ∧
      (comprehensiveAudit t' root "b" .critical period).Agrees first := by
  intro t root period first
  have ht : t.IsRooted := by decide
  have hroot : t.pathExists root := by cbv
  have hid := (comprehensiveAudit_heading .standard period t root "b").1.1
  have hsaved := savedReports_in_new_directory t ⟨"p/d"⟩ ["p", "d"] hid (by cbv) (by cbv) rfl
    (fun _ => rfl) (by decide +kernel) (by decide)
  refine ⟨_, rfl, ht, hroot, hsaved, repeated_audits ht hroot hsaved ?_ ..⟩
  intro base hbase x hx hcannot
  have hbase' : t.locate .followed root = .ok ["p"] := by cbv
  obtain rfl := Except.ok.inj (hbase'.symm.trans hbase)
  have hopen : ∀ x ∈ [(FileTree.pathBelow root ["b"], Entry.file .empty),
      (FileTree.pathBelow root ["d"], .directory),
      (FileTree.pathBelow root ["d", first.jsonName], .file first.write.toUTF8),
      (FileTree.pathBelow root ["d", first.textName], .file (Plain.audit first).toUTF8)],
      ¬ FileTree.cannotOpen x := by
    simp only [List.forall_mem_cons]
    exact ⟨Bool.false_ne_true, by decide +kernel, Bool.false_ne_true, Bool.false_ne_true,
      List.forall_mem_nil _⟩
  exact absurd hcannot (hopen x hx)

/-- a directory for reports whose path from a root with many dots is too long -/
theorem repeated_audits_too_deep :
    let t : FileTree := ⟨[(["d"], .directory)], []⟩
    let root : Path := (Path.mk "d").afterDots 2047
    let period : AuditPeriod := ⟨⟨1709208000, 0⟩, ⟨1709208060, 0⟩⟩
    ∃ t', t.IsRooted ∧ t.pathExists root ∧ SavedReports "b" t t' ∧
      (comprehensiveAudit t root "b" .standard period).status = .completed ∧
      (comprehensiveAudit t' root "b" .standard period).status = .failed := by
  intro t root period
  have ht : t.IsRooted := by decide
  have hid := (comprehensiveAudit_heading .standard period t root "b").1.1
  have hsaved := savedReports_in_new_directory t ⟨"d/d"⟩ ["d", "d"] hid (by cbv) (by cbv) rfl
    (fun _ => rfl) (by decide +kernel) (by decide)
  have hparse : Glob.parse "b" = .ok ⟨[.char 'b']⟩ := by cbv
  -- the dots lead nowhere
  have hbase : t.locate .followed root = .ok ["d"] := by
    rw [FileTree.locate_afterDots (by decide) (by decide) (by decide)]
    cbv
  have hcannot : FileTree.cannotOpen (FileTree.pathBelow root ["d"], .directory) :=
    FileTree.cannotOpen_afterDots (by decide) (by decide) (by decide)
  refine ⟨_, ht, FileTree.pathExists_of_entry hbase rfl, hsaved, ?_, ?_⟩
  · exact status_of_no_contracts hparse hbase rfl (by decide) (by decide)
  · refine status_of_cannotOpen hparse
      (FileTree.locate_of_keeps (FileTree.keeps_adding (by simp)) hbase) rfl
      (List.cons_ne_nil _ _) ?_ hcannot
    exact List.mem_append_right _ List.mem_cons_self

end ContractAudit
