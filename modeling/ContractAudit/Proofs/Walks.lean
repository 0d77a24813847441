import ContractAudit.Discovery
import ContractAudit.Proofs.Locations
import ContractAudit.Proofs.PathOrder

/-!
# What a walk comes to

* `FileTree.IsSound t`: no two entries of `t` have one location, and no name leads elsewhere.
* `FileTree.walk_eq_ok_iff`: when a walk meets no error, and what it then comes to.
* `FileTree.walk_of_directory`: a walk of a directory when all can be opened.
* `FileTree.LooksLike.exists_walk`: trees that look alike are walked alike.
* `FileTree.IsSound.pairwise_walk`: no two paths of a walk have the same components.
* `contracts`, `discover_of_walk`: the contracts of a walk, which are those that are found.
* `FileTree.IsSound.increases_contracts`: their paths increase.
-/

namespace ContractAudit

open Std

/-- a tree as a disk can hold it -/
structure FileTree.IsSound (t : FileTree) : Prop where
  /-- no two entries have one location -/
  pairwise : t.entries.Pairwise fun x y => x.1 ≠ y.1
  isName : ∀ x ∈ t.entries, ∀ name ∈ x.1, IsName name

namespace FileTree

instance (t : FileTree) : Decidable t.IsSound :=
  decidable_of_iff ((t.entries.Pairwise fun x y => x.1 ≠ y.1) ∧
      ∀ x ∈ t.entries, ∀ name ∈ x.1, IsName name)
    ⟨fun ⟨hpairwise, hname⟩ => ⟨hpairwise, hname⟩, fun h => ⟨h.pairwise, h.isName⟩⟩

section
variable {t : FileTree} {root : Path} {base : Location}

theorem relativeTo_eq_some {l names : Location} (h : relativeTo base l = some names) :
    l = base ++ names ∧ names ≠ [] := by
  rw [relativeTo] at h
  split at h
  · rename_i hprefix
    obtain ⟨⟨rest, hrest⟩, hlength⟩ := And.imp_left List.isPrefixOf_iff_prefix.1 hprefix
    subst hrest
    rw [List.drop_left, Option.some_inj] at h
    subst h
    refine ⟨rfl, fun hnil => ?_⟩
    rw [hnil, List.append_nil] at hlength
    exact Nat.lt_irrefl _ hlength
  · exact absurd h (by simp)

theorem relativeTo_append {names : Location} (h : names ≠ []) :
    relativeTo base (base ++ names) = some names := by
  have hlength := List.length_pos_iff.2 h
  rw [relativeTo, if_pos, List.drop_left]
  refine ⟨List.isPrefixOf_iff_prefix.2 (List.prefix_append base names), ?_⟩
  rw [List.length_append]
  omega

theorem mem_below_iff {x : Location × Entry} :
    x ∈ t.below base ↔ x.1 ≠ [] ∧ (base ++ x.1, x.2) ∈ t.entries := by
  constructor
  · intro hx
    obtain ⟨⟨l, e⟩, hmem, hl⟩ := List.mem_filterMap.1 hx
    obtain ⟨names, hnames, rfl⟩ := Option.map_eq_some_iff.1 hl
    obtain ⟨rfl, hne⟩ := relativeTo_eq_some hnames
    exact ⟨hne, hmem⟩
  · intro hx
    refine List.mem_filterMap.2 ⟨_, hx.2, ?_⟩
    show (relativeTo base (base ++ x.1)).map (·, x.2) = some x
    rw [relativeTo_append hx.1]
    rfl

theorem IsSound.pairwise_below (ht : t.IsSound) (base : Location) :
    (t.below base).Pairwise fun x y => x.1 ≠ y.1 := by
  refine List.Pairwise.filterMap _ (fun x y hne a ha b hb hab => hne ?_) ht.pairwise
  obtain ⟨names, hnames, rfl⟩ := Option.map_eq_some_iff.1 ha
  obtain ⟨names', hnames', rfl⟩ := Option.map_eq_some_iff.1 hb
  have hab : names = names' := hab
  rw [(relativeTo_eq_some hnames).1, (relativeTo_eq_some hnames').1, hab]

theorem IsSound.isName_of_mem_below (ht : t.IsSound) {x : Location × Entry}
    (hx : x ∈ t.below base) : ∀ name ∈ x.1, IsName name := fun name hname =>
  ht.isName _ (mem_below_iff.1 hx).2 name (List.mem_append_right base hname)

/-! ## walks -/

/-- the entries below a directory with the paths that a walk gives them -/
def pathsBelow (t : FileTree) (root : Path) (base : Location) : List (Path × Entry) :=
  (t.below base).map fun x => (pathBelow root x.1, x.2)

theorem walkThrough_of_lockedDirectory (h : t.entry? base = some .lockedDirectory) (e : Entry) :
    t.walkThrough root e base = .error ⟨root, .notAllowed⟩ := by
  unfold walkThrough
  rw [h]

theorem walkThrough_of_directory (h : t.entry? base = some .directory) (e : Entry) :
    t.walkThrough root e base = match (t.pathsBelow root base).find? cannotOpen with
      | some x => .error ⟨x.1, whyClosed x.1⟩
      | none => .ok ((root, e) :: t.pathsBelow root base) := by
  have hbelow : t.walkBelow root base = match (t.pathsBelow root base).find? cannotOpen with
      | some x => .error ⟨x.1, whyClosed x.1⟩
      | none => .ok (t.pathsBelow root base) := rfl
  unfold walkThrough
  rw [h, hbelow]
  simp only
  split <;> rfl

/-- a walk goes through a directory if that and everything in there can be opened -/
theorem walkThrough_eq_ok_iff {d e : Entry} (hbase : t.entry? base = some d) (hd : d.isDirectory)
    {entries : List (Path × Entry)} :
    t.walkThrough root e base = .ok entries ↔ d = .directory ∧
      (∀ x ∈ t.pathsBelow root base, ¬ cannotOpen x) ∧
        entries = (root, e) :: t.pathsBelow root base := by
  obtain rfl | rfl := d.eq_directory_or hd
  · simp [walkThrough_of_lockedDirectory hbase]
  · rw [walkThrough_of_directory hbase, and_iff_right rfl]
    cases hfind : (t.pathsBelow root base).find? cannotOpen with
    | some x =>
      constructor
      · intro h
        cases h
      · intro h
        exact absurd (List.find?_some hfind) (h.1 x (List.mem_of_find?_eq_some hfind))
    | none =>
      have hopen := List.find?_eq_none.1 hfind
      exact ⟨fun h => ⟨hopen, (Except.ok.inj h).symm⟩, fun h => h.2 ▸ rfl⟩

theorem not_isEmpty_of_locate {purpose : Purpose} {l : Location}
    (h : t.locate purpose root = .ok l) : ¬ root.raw.isEmpty := by
  intro hempty
  rw [locate, if_pos hempty] at h
  cases h

theorem isDirectory_iff (hbase : t.locate .followed root = .ok base) :
    t.isDirectory root ↔ ∃ e, t.entry? base = some e ∧ e.isDirectory := by
  have hentry : t.entryAt? root = t.entry? base := by rw [entryAt?, hbase]
  rw [isDirectory, hentry]
  cases t.entry? base <;> simp

theorem walk_of_locate {l : Location} {e : Entry} (hl : t.locate .asItIs root = .ok l)
    (he : t.entry? l = some e) (hbase : t.locate .followed root = .ok base) :
    t.walk root =
      if t.isDirectory root then t.walkThrough root e base else .ok [(root, e)] := by
  have hdirectory : (t.entry? base).any (·.isDirectory) = t.isDirectory root := by
    rw [Bool.eq_iff_iff, Option.any_eq_true, isDirectory_iff hbase]
  rw [walk, hl]
  simp only [Except.mapError, bind, Except.bind, he]
  by_cases hlink : ∃ target, e = .link target
  · obtain ⟨target, rfl⟩ := hlink
    simp only [hbase, hdirectory]
    rfl
  · -- all but a link stands itself where its path leads
    have hsame : base = l := by
      have hl' := locate_followed_of_asItIs hl fun target h' =>
        hlink ⟨target, Option.some.inj (he ▸ h')⟩
      exact Except.ok.inj (hbase.symm.trans hl')
    rw [← hdirectory, hsame, he]
    cases e with
    | link target => exact absurd ⟨target, rfl⟩ hlink
    | _ => rfl

/-- a walk of a directory begins with its root, which is that directory or a link to it -/
theorem exists_walk_of_directory (hbase : t.locate .followed root = .ok base)
    (hdirectory : t.entry? base = some .directory) : ∃ e, ¬ e.isFile ∧
      t.walk root = match (t.pathsBelow root base).find? cannotOpen with
        | some x => .error ⟨x.1, whyClosed x.1⟩
        | none => .ok ((root, e) :: t.pathsBelow root base) := by
  obtain ⟨l, e, hl, he, hkind⟩ := exists_asItIs_of_followed hbase hdirectory
  refine ⟨e, ?_, ?_⟩
  · rcases hkind with rfl | ⟨target, rfl⟩ <;> exact Bool.false_ne_true
  · rw [walk_of_locate hl he hbase, if_pos ((isDirectory_iff hbase).2 ⟨_, hdirectory, rfl⟩),
      walkThrough_of_directory hdirectory]

/-- a walk of a closed directory ends at once -/
theorem walk_of_lockedDirectory (hbase : t.locate .followed root = .ok base)
    (hlocked : t.entry? base = some .lockedDirectory) :
    t.walk root = .error ⟨root, .notAllowed⟩ := by
  obtain ⟨l, e, hl, he, -⟩ := exists_asItIs_of_followed hbase hlocked
  rw [walk_of_locate hl he hbase, if_pos ((isDirectory_iff hbase).2 ⟨_, hlocked, rfl⟩),
    walkThrough_of_lockedDirectory hlocked]

theorem exists_locate_of_walk {entries : List (Path × Entry)} (h : t.walk root = .ok entries) :
    ∃ l e base, t.locate .asItIs root = .ok l ∧ t.entry? l = some e ∧
      t.locate .followed root = .ok base := by
  rw [walk] at h
  cases hl : t.locate .asItIs root with
  | error e =>
    rw [hl] at h
    cases h
  | ok l =>
    rw [hl] at h
    simp only [Except.mapError, bind, Except.bind] at h
    cases he : t.entry? l with
    | none =>
      rw [he] at h
      cases h
    | some e =>
      rw [he] at h
      cases e with
      | link target =>
        cases hbase : t.locate .followed root with
        | error e =>
          rw [hbase] at h
          cases h
        | ok base => exact ⟨l, _, base, rfl, he, rfl⟩
      | _ => exact ⟨l, _, l, rfl, he, locate_followed_of_asItIs hl (by simp [he])⟩

/-- A walk meets no error if its root is there and every directory on it can be opened.  It comes
to the root, and if that leads to a directory, to everything below. -/
theorem walk_eq_ok_iff {entries : List (Path × Entry)} :
    t.walk root = .ok entries ↔
      ∃ l e base, t.locate .asItIs root = .ok l ∧ t.entry? l = some e ∧
        t.locate .followed root = .ok base ∧
        if t.isDirectory root then
          t.entry? base = some .directory ∧ (∀ x ∈ t.pathsBelow root base, ¬ cannotOpen x) ∧
            entries = (root, e) :: t.pathsBelow root base
        else entries = [(root, e)] := by
  have hok {e : Entry} : (Except.ok [(root, e)] : Except WalkError _) = .ok entries ↔
      entries = [(root, e)] := ⟨fun h => (Except.ok.inj h).symm, fun h => h ▸ rfl⟩
  have hthrough {e : Entry} {base : Location} (hbase : t.locate .followed root = .ok base)
      (hdirectory : t.isDirectory root) : t.walkThrough root e base = .ok entries ↔
        t.entry? base = some .directory ∧ (∀ x ∈ t.pathsBelow root base, ¬ cannotOpen x) ∧
          entries = (root, e) :: t.pathsBelow root base := by
    obtain ⟨d, hd, hkind⟩ := (isDirectory_iff hbase).1 hdirectory
    rw [walkThrough_eq_ok_iff hd hkind, hd, Option.some_inj]
  constructor
  · intro h
    obtain ⟨l, e, base, hl, he, hbase⟩ := exists_locate_of_walk h
    refine ⟨l, e, base, hl, he, hbase, ?_⟩
    rw [walk_of_locate hl he hbase] at h
    split at h
    · rwa [if_pos ‹_›, ← hthrough hbase ‹_›]
    · rwa [if_neg ‹_›, ← hok]
  · rintro ⟨l, e, base, hl, he, hbase, h⟩
    rw [walk_of_locate hl he hbase]
    split at h
    · rwa [if_pos ‹_›, hthrough hbase ‹_›]
    · rwa [if_neg ‹_›, hok]

theorem walk_of_directory {l : Location} {e : Entry} (hl : t.locate .asItIs root = .ok l)
    (he : t.entry? l = some e) (hbase : t.locate .followed root = .ok base)
    (hopen : t.entry? base = some .directory)
    (hbelow : ∀ x ∈ t.pathsBelow root base, ¬ cannotOpen x) :
    t.walk root = .ok ((root, e) :: t.pathsBelow root base) := by
  refine walk_eq_ok_iff.2 ⟨l, e, base, hl, he, hbase, ?_⟩
  rw [if_pos ((isDirectory_iff hbase).2 ⟨.directory, hopen, rfl⟩)]
  exact ⟨hopen, hbelow, rfl⟩

/-- A tree that looks like one whose walk meets no error is walked in the same way, if what it has
below the root can be opened as well. -/
theorem LooksLike.exists_walk {t' : FileTree} (h : t'.LooksLike t)
    (hstart : t'.workingDirectory = t.workingDirectory) {entries : List (Path × Entry)}
    (hwalk : t.walk root = .ok entries)
    (hopen : ∀ base, (∀ x ∈ t.pathsBelow root base, ¬ cannotOpen x) →
      ∀ x ∈ t'.pathsBelow root base, ¬ cannotOpen x) :
    ∃ l e e' base, t.entry? l = some e ∧ t'.entry? l = some e' ∧
      (entries = [(root, e)] ∧ t'.walk root = .ok [(root, e')] ∨
        entries = (root, e) :: t.pathsBelow root base ∧
          t'.walk root = .ok ((root, e') :: t'.pathsBelow root base)) := by
  obtain ⟨l, e, base, hl, he, hbase, hentries⟩ := walk_eq_ok_iff.1 hwalk
  obtain ⟨e', he', -⟩ := Option.map_eq_some_iff.1 ((h l).trans (congrArg _ he))
  have hl' : t'.locate .asItIs root = .ok l := (locate_congr h hstart _ root).trans hl
  have hbase' : t'.locate .followed root = .ok base := (locate_congr h hstart _ root).trans hbase
  refine ⟨l, e, e', base, he, he', ?_⟩
  split at hentries
  · rename_i hdirectory
    obtain ⟨hbare, hopen', hentries⟩ := hentries
    have hbare' : t'.entry? base = some .directory := h.entry_eq_directory hbare
    refine .inr ⟨hentries, walk_eq_ok_iff.2 ⟨l, e', base, hl', he', hbase', ?_⟩⟩
    rw [isDirectory_congr h hstart, if_pos hdirectory]
    exact ⟨hbare', hopen base hopen', rfl⟩
  · rename_i hdirectory
    refine .inl ⟨hentries, walk_eq_ok_iff.2 ⟨l, e', base, hl', he', hbase', ?_⟩⟩
    rw [isDirectory_congr h hstart, if_neg hdirectory]

theorem IsSound.pairwise_walk (ht : t.IsSound) {entries : List (Path × Entry)}
    (h : t.walk root = .ok entries) :
    entries.Pairwise fun x y => x.1.components ≠ y.1.components := by
  obtain ⟨l, e, base, hl, -, -, h⟩ := walk_eq_ok_iff.1 h
  have hroot := not_isEmpty_of_locate hl
  split at h
  · have hcomponents : ∀ x ∈ t.below base,
        (pathBelow root x.1).components = root.components ++ x.1.map .name := fun x hx =>
      components_pathBelow hroot (ht.isName_of_mem_below hx)
    rw [h.2.2, List.pairwise_cons, pathsBelow, List.pairwise_map]
    constructor
    · intro y hy hsame
      obtain ⟨x, hx, rfl⟩ := List.mem_map.1 hy
      rw [hcomponents x hx] at hsame
      exact (mem_below_iff.1 hx).1 (List.map_eq_nil_iff.1 (List.self_eq_append_right.1 hsame))
    · refine (ht.pairwise_below base).imp_of_mem fun hx hy hne hsame => hne ?_
      rw [hcomponents _ hx, hcomponents _ hy, List.append_cancel_left_eq] at hsame
      exact List.map_injective_iff.2 (fun _ _ h => Path.Component.name.inj h) hsame
  · rw [h]
    exact List.pairwise_singleton _ _

end

end FileTree

/-! ## contracts -/

theorem walkedFileName?_eq_some_iff {x : Path × Entry} {name : RawText} :
    walkedFileName? x = some name ↔ x.2.isFile ∧ x.1.fileName? = some name :=
  Option.ite_none_right_eq_some

theorem isContract_iff {g : Glob.Pattern} {x : Path × Entry} :
    isContract g x ↔ x.2.isFile ∧ ∃ name, x.1.fileName? = some name ∧ g.matchesName name.text := by
  rw [isContract, walkedFileName?]
  cases hfile : x.2.isFile <;> cases hname : x.1.fileName? <;> simp

/-- the contracts of a walk, in the order of their paths -/
def contracts (pattern : Glob.Pattern) (entries : List (Path × Entry)) : List Path :=
  sortPaths ((entries.filter (isContract pattern)).map (·.1))

theorem sortPaths_perm (ps : List Path) : (sortPaths ps).Perm ps := List.mergeSort_perm ps _

section
variable {g : Glob.Pattern} {entries : List (Path × Entry)}

theorem mem_contracts {file : Path} :
    file ∈ contracts g entries ↔ ∃ x ∈ entries.filter (isContract g), x.1 = file := by
  rw [contracts, (sortPaths_perm _).mem_iff, List.mem_map]

theorem length_contracts :
    (contracts g entries).length = (entries.filter (isContract g)).length := by
  rw [contracts, (sortPaths_perm _).length_eq, List.length_map]

theorem contracts_eq_nil_iff : contracts g entries = [] ↔ entries.filter (isContract g) = [] := by
  rw [← List.length_eq_zero_iff, length_contracts, List.length_eq_zero_iff]

end

/-- sorted paths increase if no two of them have the same components -/
theorem increases_sortPaths {ps : List Path}
    (h : ps.Pairwise fun p q => p.components ≠ q.components) :
    (sortPaths ps).Pairwise fun p q => compare p q = .lt := by
  have hle : (sortPaths ps).Pairwise fun p q => (compare p q).isLE = true := by
    refine List.pairwise_mergeSort ?_ ?_ ps
    · intro p q r hpq hqr
      exact TransCmp.isLE_trans hpq hqr
    · intro p q
      cases hpq : compare p q with
      | gt => rw [OrientedCmp.lt_of_gt hpq]; rfl
      | _ => rfl
  have hne : (sortPaths ps).Pairwise fun p q => p.components ≠ q.components :=
    ((sortPaths_perm ps).pairwise_iff fun h => h.symm).2 h
  refine (hle.and hne).imp fun {p q} hpq => ?_
  cases hc : compare p q with
  | lt => rfl
  | eq => exact absurd (Path.compare_eq_iff.1 hc) hpq.2
  | gt =>
    rw [hc] at hpq
    exact absurd hpq.1 (by decide)

theorem FileTree.IsSound.increases_contracts {t : FileTree} (ht : t.IsSound) {root : Path}
    {entries : List (Path × Entry)} (h : t.walk root = .ok entries) (pattern : Glob.Pattern) :
    (contracts pattern entries).Pairwise fun p q => compare p q = .lt := by
  refine increases_sortPaths ?_
  rw [List.pairwise_map]
  exact (ht.pairwise_walk h).filter _

section
variable {t : FileTree} {root : Path} {pattern : String}

theorem discover_of_walk {g : Glob.Pattern} (hg : Glob.parse pattern = .ok g)
    (hroot : t.pathExists root) {entries : List (Path × Entry)}
    (hwalk : t.walk root = .ok entries) :
    discover t root pattern = .ok (contracts g entries) := by
  rw [discover, hg]
  show (if t.pathExists root then _ else _) = _
  rw [if_pos hroot, walkFrom, hwalk]
  rfl

theorem discover_of_walk_error {g : Glob.Pattern} (hg : Glob.parse pattern = .ok g)
    (hroot : t.pathExists root) {e : WalkError} (hwalk : t.walk root = .error e) :
    discover t root pattern = .error (.walk e.path e.cause) := by
  rw [discover, hg]
  show (if t.pathExists root then _ else _) = _
  rw [if_pos hroot, walkFrom, hwalk]
  rfl

theorem discover_of_not_pathExists {g : Glob.Pattern} (hg : Glob.parse pattern = .ok g)
    (hroot : ¬ t.pathExists root) : discover t root pattern = .ok [] := by
  rw [discover, hg]
  show (if t.pathExists root then _ else _) = _
  rw [if_neg hroot]
  rfl

theorem discover_of_parse_error {e : GlobError} (hg : Glob.parse pattern = .error e) :
    discover t root pattern = .error (.pattern e) := by
  rw [discover, hg]
  rfl

end

end ContractAudit
