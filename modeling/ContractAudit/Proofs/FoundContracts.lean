import Mathlib.Data.List.Induction
import ContractAudit.Proofs.OrderedMaps
import ContractAudit.Proofs.Walks

/-!
# Which contracts are found

A contract is a regular file at or below a root that is reached through directories, and whose name
fits the pattern.  Those are found, each once, in the order of their paths.  In which order
directories list what is in them makes no difference.

* `FileTree.IsRooted t`: every entry of `t` stands in a directory that is not closed.
* `FileTree.Reaches t base names e`: the names lead from a place to the entry `e`, through
  directories alone.
* `FileTree.HasFile t root p name`: `p` is the path of a file at or below the root.
* `FileTree.HasContract t root g p`: `p` is the path of a contract at or below the root.
* `exists_walked_iff_hasFile`, `mem_contracts_iff_hasContract`: those are what a walk comes to.
* `exists_contiguous`: of paths in their order, those below one directory stand together.
* `FileTree.exists_walk_of_perm`: what a walk comes to in another listing order.

The main statement is `contracts_found_once`.
-/

namespace ContractAudit

open Std

/-! ## entries in directories -/

namespace FileTree

/-- a tree in which every entry stands in a directory that can be looked into -/
structure IsRooted (t : FileTree) : Prop extends t.IsSound where
  directory_above : ∀ x ∈ t.entries, t.entry? x.1.dropLast = some .directory

instance (e : Option Entry) : Decidable (e = some .directory) :=
  match e with
  | some .directory => .isTrue rfl
  | none | some (.file _) | some .lockedFile | some .lockedDirectory | some (.link _) =>
    .isFalse nofun

instance (t : FileTree) : Decidable t.IsRooted :=
  decidable_of_iff (t.IsSound ∧ ∀ x ∈ t.entries, t.entry? x.1.dropLast = some .directory)
    ⟨fun ⟨hsound, habove⟩ => ⟨hsound, habove⟩, fun h => ⟨h.toIsSound, h.directory_above⟩⟩

/-- the names lead from a place to an entry, through directories alone -/
inductive Reaches (t : FileTree) (base : Location) : Location → Entry → Prop
  /-- the place is a directory itself -/
  | here : t.entry? base = some .directory → Reaches t base [] .directory
  /-- one name further down, from a directory -/
  | down {names : Location} {name : RawText} {e : Entry} : Reaches t base names .directory →
      t.entry? (base ++ (names ++ [name])) = some e → Reaches t base (names ++ [name]) e

section
variable {t : FileTree} {base names : Location} {e : Entry}

theorem Reaches.entry_eq (h : t.Reaches base names e) : t.entry? (base ++ names) = some e := by
  cases h with
  | here h => rwa [List.append_nil]
  | down _ h => exact h

theorem Reaches.base_directory (h : t.Reaches base names e) :
    t.entry? base = some .directory := by
  induction h with
  | here h => exact h
  | down _ _ ih => exact ih

theorem IsSound.entry_eq_some_iff (ht : t.IsSound) {l : Location} (hl : l ≠ []) :
    t.entry? l = some e ↔ (l, e) ∈ t.entries := by
  rw [ entry?, if_neg hl, List.lookup_eq_some_iff]
  constructor
  · rintro ⟨before, after, h, -⟩
    rw [h]
    exact List.mem_append_right before List.mem_cons_self
  · intro h
    obtain ⟨before, after, h⟩ := List.append_of_mem h
    have hpairwise := ht.pairwise
    rw [h, List.pairwise_append] at hpairwise
    refine ⟨before, after, h, fun x hx => bne_iff_ne.2 ?_⟩
    exact (hpairwise.2.2 x hx (l, e) List.mem_cons_self).symm

/-- from a directory every entry below it is reached -/
theorem IsRooted.reaches_of_mem (ht : t.IsRooted) (hbase : t.entry? base = some .directory)
    (hnames : names ≠ []) (h : (base ++ names, e) ∈ t.entries) : t.Reaches base names e := by
  -- the names from the last to the first: each stands in the directory of those before it
  induction names using List.reverseRecOn generalizing e with
  | nil => exact absurd rfl hnames
  | append_singleton names name ih =>
    have habove : t.entry? (base ++ names) = some .directory := by
      have hlast := ht.directory_above _ h
      rwa [← List.append_assoc, List.dropLast_concat] at hlast
    have hentry : t.entry? (base ++ (names ++ [name])) = some e :=
      (ht.entry_eq_some_iff (by simp)).2 h
    rcases List.eq_nil_or_concat' names with rfl | ⟨_, _, rfl⟩
    · exact .down (.here hbase) hentry
    · exact .down (ih (by simp) ((ht.entry_eq_some_iff (by simp)).1 habove)) hentry

theorem IsRooted.mem_below_iff_reaches (ht : t.IsRooted)
    (hbase : t.entry? base = some .directory) :
    (names, e) ∈ t.below base ↔ names ≠ [] ∧ t.Reaches base names e := by
  rw [mem_below_iff]
  refine and_congr_right fun hnames => ⟨ht.reaches_of_mem hbase hnames, fun h => ?_⟩
  exact (ht.entry_eq_some_iff (by simp [hnames])).1 h.entry_eq

end

/-! ## files and contracts -/

/-- a file at or below a root, by its path and its name -/
inductive HasFile (t : FileTree) (root : Path) : Path → RawText → Prop
  /-- the root is a file itself, and not a link to one -/
  | atRoot {l : Location} {e : Entry} {name : RawText} : t.locate .asItIs root = .ok l →
      t.entry? l = some e → e.isFile → root.fileName? = some name → HasFile t root root name
  /-- a file below the directory that the root leads to -/
  | below {base names : Location} {name : RawText} {e : Entry} :
      t.locate .followed root = .ok base → t.Reaches base (names ++ [name]) e → e.isFile →
      HasFile t root (pathBelow root (names ++ [name])) name

/-- the path of a contract at or below a root; it is its name as it is shown that fits -/
inductive HasContract (t : FileTree) (root : Path) (g : Glob.Pattern) : Path → Prop
  /-- the root is a file itself, and not a link to one -/
  | atRoot {l : Location} {e : Entry} {name : RawText} : t.locate .asItIs root = .ok l →
      t.entry? l = some e → e.isFile → root.fileName? = some name → g.matchesName name.text →
      HasContract t root g root
  /-- a file below the directory that the root leads to -/
  | below {base names : Location} {name : RawText} {e : Entry} :
      t.locate .followed root = .ok base → t.Reaches base (names ++ [name]) e → e.isFile →
      g.matchesName name.text → HasContract t root g (pathBelow root (names ++ [name]))

theorem hasContract_iff {t : FileTree} {root file : Path} {g : Glob.Pattern} :
    t.HasContract root g file ↔ ∃ name, t.HasFile root file name ∧ g.matchesName name.text := by
  constructor
  · intro h
    cases h with
    | atRoot hl he hfile hname hfits => exact ⟨_, .atRoot hl he hfile hname, hfits⟩
    | below hbase hreaches hfile hfits => exact ⟨_, .below hbase hreaches hfile, hfits⟩
  · rintro ⟨name, h, hfits⟩
    cases h with
    | atRoot hl he hfile hname => exact .atRoot hl he hfile hname hfits
    | below hbase hreaches hfile => exact .below hbase hreaches hfile hfits

theorem fileName?_pathBelow {root : Path} (hroot : ¬ root.raw.isEmpty) {names : Location}
    {name : RawText} (h : ∀ n ∈ names ++ [name], IsName n) :
    (pathBelow root (names ++ [name])).fileName? = some name := by
  rw [Path.fileName?, components_pathBelow hroot h, List.map_append, ← List.append_assoc,
    List.map_singleton, List.getLast?_concat]

end FileTree

section
variable {t : FileTree} {root : Path} {g : Glob.Pattern} {entries : List (Path × Entry)}

/-- what a walk comes to -/
theorem mem_of_walk (hwalk : t.walk root = .ok entries) :
    ∃ l e base, t.locate .asItIs root = .ok l ∧ t.entry? l = some e ∧
      t.locate .followed root = .ok base ∧
      ∀ x, x ∈ entries ↔ x = (root, e) ∨
        t.entry? base = some .directory ∧ x ∈ t.pathsBelow root base := by
  obtain ⟨l, e, base, hl, he, hbase, h⟩ := FileTree.walk_eq_ok_iff.1 hwalk
  refine ⟨l, e, base, hl, he, hbase, fun x => ?_⟩
  split at h
  · rw [h.2.2, List.mem_cons, and_iff_right h.1]
  · rename_i hdirectory
    have hnone : ¬ t.entry? base = some .directory := fun hbase' =>
      hdirectory ((FileTree.isDirectory_iff hbase).2 ⟨_, hbase', rfl⟩)
    rw [h, List.mem_singleton, or_iff_left fun h => hnone h.1]

/-- the files that a walk comes to are those at and below the root -/
theorem exists_walked_iff_hasFile (ht : t.IsRooted) (hwalk : t.walk root = .ok entries)
    {file : Path} {name : RawText} :
    (∃ x ∈ entries, x.1 = file ∧ walkedFileName? x = some name) ↔ t.HasFile root file name := by
  obtain ⟨l, e, base, hl, he, hbase, hmem⟩ := mem_of_walk hwalk
  have hroot := FileTree.not_isEmpty_of_locate hl
  constructor
  · rintro ⟨x, hx, rfl, hwalked⟩
    obtain ⟨hfile, hname⟩ := walkedFileName?_eq_some_iff.1 hwalked
    rcases (hmem x).1 hx with rfl | ⟨hdirectory, hbelow⟩
    · exact .atRoot hl he hfile hname
    · obtain ⟨⟨names, e'⟩, hy, rfl⟩ := List.mem_map.1 hbelow
      have hnames := ht.isName_of_mem_below hy
      obtain ⟨hne, hreaches⟩ := (ht.mem_below_iff_reaches hdirectory).1 hy
      obtain ⟨above, last, rfl⟩ := (List.eq_nil_or_concat' names).resolve_left hne
      obtain rfl : last = name :=
        Option.some.inj ((FileTree.fileName?_pathBelow hroot hnames).symm.trans hname)
      exact .below hbase hreaches hfile
  · intro hfile
    cases hfile with
    | atRoot hl' he' hfile hname =>
      obtain rfl := Except.ok.inj (hl.symm.trans hl')
      obtain rfl := Option.some.inj (he.symm.trans he')
      exact ⟨_, (hmem _).2 (.inl rfl), rfl, walkedFileName?_eq_some_iff.2 ⟨hfile, hname⟩⟩
    | below hbase' hreaches hfile =>
      obtain rfl := Except.ok.inj (hbase.symm.trans hbase')
      have hdirectory := hreaches.base_directory
      have hy := (ht.mem_below_iff_reaches hdirectory).2 ⟨by simp, hreaches⟩
      have hname := FileTree.fileName?_pathBelow hroot (ht.isName_of_mem_below hy)
      have hbelow := List.mem_map_of_mem (f := fun x => (FileTree.pathBelow root x.1, x.2)) hy
      exact ⟨_, (hmem _).2 (.inr ⟨hdirectory, hbelow⟩), rfl,
        walkedFileName?_eq_some_iff.2 ⟨hfile, hname⟩⟩

theorem mem_contracts_iff_hasContract (ht : t.IsRooted) (hwalk : t.walk root = .ok entries)
    {file : Path} : file ∈ contracts g entries ↔ t.HasContract root g file := by
  rw [mem_contracts, FileTree.hasContract_iff]
  simp only [← exists_walked_iff_hasFile ht hwalk, List.mem_filter, isContract_iff,
    walkedFileName?_eq_some_iff]
  constructor
  · rintro ⟨x, ⟨hx, hfile, name, hname, hfits⟩, rfl⟩
    exact ⟨name, ⟨x, hx, rfl, hfile, hname⟩, hfits⟩
  · rintro ⟨name, ⟨x, hx, rfl, hfile, hname⟩, hfits⟩
    exact ⟨x, ⟨hx, hfile, name, hname, hfits⟩, rfl⟩

end

/-! ## directories stand together -/

/-- between two rows with the same beginning all rows have it -/
theorem prefix_of_compare {α : Type} [Ord α] [TransOrd α] [LawfulEqOrd α] {s a b c : List α}
    (hab : compare a b = .lt) (hbc : compare b c = .lt) (ha : s <+: a) (hc : s <+: c) :
    s <+: b := by
  induction s generalizing a b c with
  | nil => exact List.nil_prefix
  | cons x s ih =>
    obtain ⟨a, rfl⟩ := ha
    obtain ⟨c, rfl⟩ := hc
    rw [List.cons_append] at hab hbc
    cases b with
    | nil => exact absurd hab (by simp)
    | cons y b =>
      rw [List.compare_cons_cons, Ordering.then_eq_lt] at hab hbc
      have hxy : y = x := by
        rcases hab with hxy | ⟨hxy, -⟩
        · rcases hbc with hyx | ⟨hyx, -⟩
          · exact absurd (TransCmp.lt_trans hxy hyx) (by simp)
          · exact LawfulEqOrd.eq_of_compare hyx
        · exact (LawfulEqOrd.eq_of_compare hxy).symm
      subst hxy
      have hself : compare y y = .eq := ReflCmp.compare_self
      simp only [hself, reduceCtorEq, false_or, true_and] at hab hbc
      exact List.cons_prefix_cons.2 ⟨rfl, ih hab hbc (List.prefix_append ..)
        (List.prefix_append ..)⟩

/-- what holds between two places where it holds, stands together in an ordered list -/
theorem exists_contiguous {α : Type} {r : α → α → Prop} {l : List α} (hl : l.Pairwise r)
    {p : α → Prop} (hp : ∀ a b c, r a b → r b c → p a → p c → p b) :
    ∃ before inside after, l = before ++ inside ++ after ∧ (∀ x ∈ inside, p x) ∧
      ∀ x ∈ before ++ after, ¬ p x := by
  induction l with
  | nil => exact ⟨[], [], [], by simp⟩
  | cons x l ih =>
    obtain ⟨hx, hl⟩ := List.pairwise_cons.1 hl
    obtain ⟨before, inside, after, hsplit, hinside, houtside⟩ := ih hl
    by_cases hpx : p x
    · cases inside with
      | nil =>
        refine ⟨[], [x], before ++ after, by simp [hsplit], by simp [hpx], houtside⟩
      | cons y inside =>
        -- whatever stood between `x` and `y` would have the property as well
        have hbefore : before = [] := by
          rw [List.eq_nil_iff_forall_not_mem]
          intro z hz
          subst hsplit
          have hzy : r z y := (List.pairwise_append.1 (List.pairwise_append.1 hl).1).2.2 z hz y
            List.mem_cons_self
          have hpz := hp x z y (hx z (by simp [hz])) hzy hpx (hinside y List.mem_cons_self)
          exact houtside z (List.mem_append_left after hz) hpz
        subst hbefore
        refine ⟨[], x :: y :: inside, after, by simp [hsplit], ?_, houtside⟩
        exact List.forall_mem_cons.2 ⟨hpx, hinside⟩
    · refine ⟨x :: before, inside, after, by simp [hsplit], hinside, ?_⟩
      exact List.forall_mem_cons.2 ⟨hpx, houtside⟩

/-! ## other listing orders -/

namespace FileTree

section
variable {t t' : FileTree} (hentries : t'.entries.Perm t.entries)
include hentries

theorem IsSound.of_perm (ht : t.IsSound) : t'.IsSound where
  pairwise := (hentries.pairwise_iff fun h => h.symm).2 ht.pairwise
  isName := fun x hx => ht.isName x (hentries.mem_iff.1 hx)

theorem IsSound.entry_of_perm (ht : t.IsSound) (l : Location) : t'.entry? l = t.entry? l := by
  by_cases hl : l = []
  · rw [ entry?, entry?, if_pos hl, if_pos hl]
  · apply Option.ext
    intro e
    rw [(ht.of_perm hentries).entry_eq_some_iff hl, ht.entry_eq_some_iff hl, hentries.mem_iff]

theorem pathsBelow_perm (root : Path) (base : Location) :
    (t'.pathsBelow root base).Perm (t.pathsBelow root base) :=
  (hentries.filterMap _).map _

theorem IsSound.looksLike_of_perm (ht : t.IsSound) : t'.LooksLike t :=
  fun l => congrArg _ (ht.entry_of_perm hentries l)

/-- in another listing order a walk comes to the same entries -/
theorem IsSound.exists_walk_of_perm (ht : t.IsSound)
    (hstart : t'.workingDirectory = t.workingDirectory) {root : Path}
    {entries : List (Path × Entry)} (hwalk : t.walk root = .ok entries) :
    ∃ entries', t'.walk root = .ok entries' ∧ entries'.Perm entries := by
  have hperm := pathsBelow_perm hentries root
  obtain ⟨l, e, e', base, he, he', h⟩ := (ht.looksLike_of_perm hentries).exists_walk hstart hwalk
    fun base hopen x hx => hopen x ((hperm base).mem_iff.1 hx)
  rw [ht.entry_of_perm hentries, he] at he'
  obtain rfl := Option.some.inj he'
  rcases h with ⟨rfl, hwalk'⟩ | ⟨rfl, hwalk'⟩
  · exact ⟨_, hwalk', .refl _⟩
  · exact ⟨_, hwalk', (hperm base).cons (root, e)⟩

end

end FileTree

theorem discover_of_perm {t t' : FileTree} (ht : t.IsSound)
    (hentries : t'.entries.Perm t.entries) (hstart : t'.workingDirectory = t.workingDirectory)
    {root : Path} (hroot : t.pathExists root) {pattern : String} {g : Glob.Pattern}
    (hg : Glob.parse pattern = .ok g) {entries : List (Path × Entry)}
    (hwalk : t.walk root = .ok entries) :
    discover t' root pattern = .ok (contracts g entries) := by
  obtain ⟨entries', hwalk', hperm⟩ := ht.exists_walk_of_perm hentries hstart hwalk
  have hroot' : t'.pathExists root := by
    rwa [FileTree.pathExists_congr (ht.looksLike_of_perm hentries) hstart]
  have hcontracts : (contracts g entries').Perm (contracts g entries) :=
    (sortPaths_perm _).trans ((((hperm.filter _).map _)).trans (sortPaths_perm _).symm)
  rw [discover_of_walk hg hroot' hwalk', Ordered.eq_of_perm id
    ((ht.of_perm hentries).increases_contracts hwalk' g) (ht.increases_contracts hwalk g) hcontracts]

/-! ## all together -/

/-- **Every contract is found, and nothing else.**  A pattern that is none is an error, and a root
that does not exist has no contracts.  Otherwise, if the walk meets no error, what is found are
the contracts at and below the root, in the order of their paths and so each of them once, with
those below one directory standing together, whatever the order in which directories list what is
in them. -/
theorem contracts_found_once {t : FileTree} (ht : t.IsRooted) (root : Path) (pattern : String) :
    (∀ e, Glob.parse pattern = .error e → discover t root pattern = .error (.pattern e)) ∧
    ∀ g, Glob.parse pattern = .ok g →
      (¬ t.pathExists root → discover t root pattern = .ok []) ∧
      (t.pathExists root → ∀ entries, t.walk root = .ok entries →
        ∃ files, discover t root pattern = .ok files ∧
          (∀ file, file ∈ files ↔ t.HasContract root g file) ∧
          (files.Pairwise fun p q => compare p q = .lt) ∧
          (∀ directory : Path, ∃ before inside after, files = before ++ inside ++ after ∧
            (∀ p ∈ inside, directory.components <+: p.components) ∧
            ∀ p ∈ before ++ after, ¬ directory.components <+: p.components) ∧
          ∀ t' : FileTree, t'.entries.Perm t.entries →
            t'.workingDirectory = t.workingDirectory → discover t' root pattern = .ok files) := by
  refine ⟨fun e hg => discover_of_parse_error hg, fun g hg => ⟨discover_of_not_pathExists hg, ?_⟩⟩
  · intro hroot entries hwalk
    have hincreases := ht.increases_contracts hwalk g
    refine ⟨contracts g entries, discover_of_walk hg hroot hwalk, ?_, hincreases, ?_, ?_⟩
    · intro file
      exact mem_contracts_iff_hasContract ht hwalk
    · intro directory
      exact exists_contiguous hincreases fun _ _ _ => prefix_of_compare
    · intro t' hentries hstart
      exact discover_of_perm ht.toIsSound hentries hstart hroot hg hwalk

/-- a file below a directory comes before one beside it, whose name has a character that would come
first; links and directories do not count -/
theorem contracts_found_once_beside_a_link :
    let t : FileTree :=
      ⟨[(["p"], .directory), (["p", "a-b.omega"], .lockedFile), (["p", "a"], .directory),
        (["p", "a", "z.omega"], .file .empty), (["p", "l.omega"], .link "a/z.omega"),
        (["p", "d.omega"], .directory)], []⟩
    let root : Path := ⟨"p"⟩
    t.pathExists root ∧ ∃ files, discover t root "*.omega" = .ok files ∧
      ⟨"p/a/z.omega"⟩ ∈ files ∧ ⟨"p/a-b.omega"⟩ ∈ files ∧
      files.Pairwise fun p q => compare p q = .lt := by
  intro t root
  have ht : t.IsRooted := by decide
  have hroot : t.pathExists root := by cbv
  have hbase : t.locate .followed root = .ok ["p"] := by cbv
  have hwalk : t.walk root = .ok ((root, .directory) :: t.pathsBelow root ["p"]) :=
    FileTree.walk_of_directory (by cbv) rfl hbase rfl (by decide)
  let g : Glob.Pattern := ⟨.anySequence :: ".omega".toList.map .char⟩
  have hg : Glob.parse "*.omega" = .ok g := by cbv
  obtain ⟨files, hfiles, hmem, hincreases, -⟩ :=
    ((contracts_found_once ht root "*.omega").2 g hg).2 hroot _ hwalk
  have hp : t.Reaches ["p"] [] .directory := .here rfl
  have ha : t.Reaches ["p"] ["a"] .directory := hp.down rfl
  have hz : t.HasContract root g ⟨"p/a/z.omega"⟩ := by
    have hpath : FileTree.pathBelow root (["a"] ++ ["z.omega"]) = ⟨"p/a/z.omega"⟩ := by decide
    exact hpath ▸ .below hbase (ha.down rfl) rfl (by decide)
  have hb : t.HasContract root g ⟨"p/a-b.omega"⟩ := by
    have hpath : FileTree.pathBelow root (([] : Location) ++ ["a-b.omega"]) = ⟨"p/a-b.omega"⟩ := by
      decide
    exact hpath ▸ .below hbase (hp.down rfl) rfl (by decide)
  exact ⟨hroot, files, hfiles, (hmem _).2 hz, (hmem _).2 hb, hincreases⟩

end ContractAudit
