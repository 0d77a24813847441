import ContractAudit.Proofs.UnreadableContracts

/-!
# Scans of listed files

A list may have a path more than once, and in different spellings; these are one key of the results.
As long as they open the same file, the order of the list and its repetitions play no part.

* `FileTree.OpensAlike t files`: spellings of one path open files with the same content, or none of
  them opens one.  `FileTree.OpensAlike.of_locate`: so it is if they lead to one place.
* `FileTree.OpensAlike.mem_scanFiles_iff`: the entries of a scan are the first spellings of the
  listed paths that have findings.
* `ScanResults.byComponents`: the entries without the spellings of their paths.
* `byComponents_congr`: these depend on the listed paths alone, not on their order.

The main statement is `listed_files`.
-/

namespace ContractAudit

/-- listed paths with the same components open files with the same content, or none of them opens
one -/
def FileTree.OpensAlike (t : FileTree) (files : List Path) : Prop :=
  ∀ p ∈ files, ∀ q ∈ files, p.components = q.components →
    (t.readBytes p).toOption = (t.readBytes q).toOption

section
variable {t : FileTree} {files files' : List Path} {p q : Path}

namespace FileTree.OpensAlike

theorem of_locate (h : ∀ p ∈ files, ∀ q ∈ files, p.components = q.components →
    t.locate .followed p = t.locate .followed q) : t.OpensAlike files := by
  intro p hp q hq heq
  rw [readBytes, readBytes, h p hp q hq heq]

theorem mono (h : t.OpensAlike files) (hsub : files' ⊆ files) : t.OpensAlike files' :=
  fun p hp q hq => h p (hsub hp) q (hsub hq)

theorem scanFile_eq (h : t.OpensAlike files) (hp : p ∈ files) (hq : q ∈ files)
    (heq : p.components = q.components) : scanFile t p = scanFile t q := by
  rw [scanFile_eq_of_toOption, scanFile_eq_of_toOption, toOption_readText, toOption_readText,
    h p hp q hq heq]

/-! ## the first spellings -/

theorem snd_eq_of_mem_scannedParts (h : t.OpensAlike files) :
    ∀ x ∈ scannedParts t files, ∀ y ∈ scannedParts t files, compare x.1 y.1 = .eq → x.2 = y.2 := by
  intro x hx y hy heq
  obtain ⟨hx, hxfound, -⟩ := mem_scannedParts.1 hx
  obtain ⟨hy, hyfound, -⟩ := mem_scannedParts.1 hy
  rw [hxfound, hyfound, h.scanFile_eq hx hy (Path.compare_eq_iff.1 heq)]

/-- what is found first at a path is what its first spelling has, if that has findings -/
theorem first?_scannedParts (h : t.OpensAlike files) (k : Path) :
    Ordered.first? k (scannedParts t files) =
      (files.find? fun p => p.components = k.components).bind fun p =>
        if scanFile t p = [] then none else some (p, scanFile t p) := by
  induction files with
  | nil => rfl
  | cons p files ih =>
    have hrest := ih (h.mono (List.subset_cons_self p files))
    rw [scannedParts_cons, List.find?_cons]
    by_cases hp : p.components = k.components
    · rw [decide_eq_true hp]
      by_cases hnil : scanFile t p = []
      · -- the other spellings of this path have no findings either
        rw [if_pos hnil, hrest, Option.bind_some, if_pos hnil]
        cases hfind : files.find? fun p => p.components = k.components with
        | none => rfl
        | some q =>
          have hq := List.find?_some hfind
          have hmem : q ∈ p :: files := List.mem_cons_of_mem p (List.mem_of_find?_eq_some hfind)
          have hsame : scanFile t q = scanFile t p :=
            h.scanFile_eq hmem List.mem_cons_self ((of_decide_eq_true hq).trans hp.symm)
          rw [Option.bind_some, if_pos (hsame.trans hnil)]
      · rw [if_neg hnil, Ordered.first?_cons, if_pos (Path.compare_eq_iff.2 hp.symm),
          Option.bind_some, if_neg hnil]
    · rw [decide_eq_false hp, ← hrest]
      split_ifs
      · rfl
      · rw [Ordered.first?_cons, if_neg fun heq => hp (Path.compare_eq_iff.1 heq).symm]

/-- the entries of a scan are the first spellings of listed paths, if these have findings -/
theorem mem_scanFiles_iff (h : t.OpensAlike files) {x : Path × List Finding} :
    x ∈ (scanFiles t files).files ↔
      (files.find? fun p => p.components = x.1.components) = some x.1 ∧
        x.2 = scanFile t x.1 ∧ x.2 ≠ [] := by
  rw [scanFiles_eq_ofList, Ordered.mem_ofList_iff h.snd_eq_of_mem_scannedParts,
    h.first?_scannedParts, Option.bind_eq_some_iff]
  constructor
  · rintro ⟨p, hfind, hx⟩
    split_ifs at hx with hnil
    obtain rfl := Option.some.inj hx
    exact ⟨hfind, rfl, hnil⟩
  · rintro ⟨hfind, hfound, hne⟩
    refine ⟨x.1, hfind, ?_⟩
    rw [if_neg (hfound ▸ hne), ← hfound]

theorem exists_mem_scanFiles_iff (h : t.OpensAlike files) (hp : p ∈ files) (fs : List Finding) :
    (∃ x ∈ (scanFiles t files).files, x.1.components = p.components ∧ x.2 = fs) ↔
      fs = scanFile t p ∧ fs ≠ [] := by
  constructor
  · rintro ⟨x, hx, heq, rfl⟩
    obtain ⟨hfind, hfound, hne⟩ := h.mem_scanFiles_iff.1 hx
    exact ⟨hfound.trans (h.scanFile_eq (List.mem_of_find?_eq_some hfind) hp heq), hne⟩
  · rintro ⟨rfl, hne⟩
    obtain ⟨q, hfind⟩ : ∃ q, (files.find? fun q => q.components = p.components) = some q :=
      Option.isSome_iff_exists.1 (List.find?_isSome.2 ⟨p, hp, decide_eq_true rfl⟩)
    have hq := List.find?_some hfind
    have heq : q.components = p.components := of_decide_eq_true hq
    have hsame := h.scanFile_eq (List.mem_of_find?_eq_some hfind) hp heq
    refine ⟨(q, scanFile t q), h.mem_scanFiles_iff.2 ⟨?_, rfl, hsame ▸ hne⟩, heq, hsame⟩
    simpa only [heq] using hfind

end FileTree.OpensAlike

/-! ## the results of two lists -/

/-- the entries without the spellings of their paths -/
def ScanResults.byComponents (r : ScanResults) : List (List Path.Component × List Finding) :=
  r.files.map fun x => (x.1.components, x.2)

theorem increases_byComponents (t : FileTree) (files : List Path) :
    Ordered.Increases (scanFiles t files).byComponents :=
  List.pairwise_map.2 (increases_scanFiles t files)

theorem mem_byComponents_iff (h : t.OpensAlike files) {x : List Path.Component × List Finding} :
    x ∈ (scanFiles t files).byComponents ↔
      ∃ p ∈ files, p.components = x.1 ∧ x.2 = scanFile t p ∧ x.2 ≠ [] := by
  constructor
  · intro hx
    obtain ⟨y, hy, rfl⟩ := List.mem_map.1 hx
    obtain ⟨hfind, hfound, hne⟩ := h.mem_scanFiles_iff.1 hy
    exact ⟨y.1, List.mem_of_find?_eq_some hfind, rfl, hfound, hne⟩
  · obtain ⟨components, fs⟩ := x
    rintro ⟨p, hp, rfl, hfound⟩
    obtain ⟨y, hy, heq, rfl⟩ := (h.exists_mem_scanFiles_iff hp fs).2 hfound
    exact List.mem_map.2 ⟨y, hy, by rw [heq]⟩

theorem mem_byComponents_mono (h : t.OpensAlike (files ++ files'))
    (hsub : files.map Path.components ⊆ files'.map Path.components)
    {x : List Path.Component × List Finding}
    (hx : x ∈ (scanFiles t files).byComponents) : x ∈ (scanFiles t files').byComponents := by
  have hleft : files ⊆ files ++ files' := List.subset_append_left files files'
  have hright : files' ⊆ files ++ files' := List.subset_append_right files files'
  obtain ⟨p, hp, heq, hfound⟩ := (mem_byComponents_iff (h.mono hleft)).1 hx
  obtain ⟨q, hq, hqp⟩ := List.mem_map.1 (hsub (List.mem_map_of_mem hp))
  rw [← h.scanFile_eq (hright hq) (hleft hp) hqp] at hfound
  exact (mem_byComponents_iff (h.mono hright)).2 ⟨q, hq, hqp.trans heq, hfound⟩

theorem byComponents_congr (h : t.OpensAlike (files ++ files'))
    (hsame : ∀ c, c ∈ files.map Path.components ↔ c ∈ files'.map Path.components) :
    (scanFiles t files).byComponents = (scanFiles t files').byComponents := by
  have h' : t.OpensAlike (files' ++ files) := h.mono List.perm_append_comm.subset
  exact Ordered.eq_of_mem_iff (increases_byComponents t files) (increases_byComponents t files')
    fun x => ⟨mem_byComponents_mono h fun c => (hsame c).1,
      mem_byComponents_mono h' fun c => (hsame c).2⟩

end

/-- **Scans of listed files.**  The paths of the results increase strictly.  A listed path has an
entry if and only if its file can be read and something is found in its text, and the entry has just
that.  The path of an entry is spelled as it is listed first.  Lists of the same paths have the same
results, up to these spellings. -/
theorem listed_files {t : FileTree} {files : List Path} (h : t.OpensAlike files) :
    let entries := (scanFiles t files).files
    (entries.Pairwise fun x y => compare x.1 y.1 = .lt) ∧
    (∀ p ∈ files, ∀ fs, (∃ x ∈ entries, x.1.components = p.components ∧ x.2 = fs) ↔
        ∃ s, t.readText p = .ok s ∧ fs = scanText s.toList ∧ fs ≠ []) ∧
    (∀ x ∈ entries, (files.find? fun p => p.components = x.1.components) = some x.1) ∧
    ∀ files', t.OpensAlike (files ++ files') →
      (∀ c, c ∈ files.map Path.components ↔ c ∈ files'.map Path.components) →
      (scanFiles t files).byComponents = (scanFiles t files').byComponents := by
  intro entries
  refine ⟨increases_scanFiles t files, fun p hp fs => ?_, fun x hx => ?_,
    fun files' hboth hsame => byComponents_congr hboth hsame⟩
  · rw [h.exists_mem_scanFiles_iff hp, eq_scanFile_iff]
  · exact (h.mem_scanFiles_iff.1 hx).1

/-- a file is listed in two spellings around one that is no text -/
theorem listed_files_in_two_spellings :
    let source := "external_call(target);"
    let t : FileTree :=
      ⟨[(["d"], .directory), (["d", "b"], .file source.toUTF8), (["c"], .file ⟨#[255]⟩)], []⟩
    let files : List Path := [⟨"d//b"⟩, ⟨"c"⟩, ⟨"d/./b"⟩]
    let files' : List Path := [⟨"c"⟩, ⟨"d/b"⟩]
    t.OpensAlike (files ++ files') ∧
      (∀ c, c ∈ files.map Path.components ↔ c ∈ files'.map Path.components) ∧
      (⟨"d//b"⟩, scanText source.toList) ∈ (scanFiles t files).files ∧
      scanText source.toList ≠ [] ∧
      (scanFiles t files).byComponents = (scanFiles t files').byComponents := by
  intro source t files files'
  have hplaces : (files ++ files').map (t.locate .followed) =
      [.ok ["d", "b"], .ok ["c"], .ok ["d", "b"], .ok ["c"], .ok ["d", "b"]] := by cbv
  have hlocate : ∀ p ∈ files ++ files', t.locate .followed p =
      .ok (if p.components = Path.components ⟨"c"⟩ then ["c"] else ["d", "b"]) :=
    List.map_inj_left.1 (hplaces.trans (by rfl))
  have h : t.OpensAlike (files ++ files') := .of_locate fun p hp q hq heq => by
    rw [hlocate p hp, hlocate q hq, heq]
  have hsame (c : List Path.Component) :
      c ∈ files.map Path.components ↔ c ∈ files'.map Path.components := by
    have hfiles : files.map Path.components = [Path.components ⟨"d/b"⟩, Path.components ⟨"c"⟩,
        Path.components ⟨"d/b"⟩] := by decide +kernel
    rw [hfiles]
    show _ ↔ c ∈ [Path.components ⟨"c"⟩, Path.components ⟨"d/b"⟩]
    simp only [List.mem_cons]
    tauto
  have hread : t.readText ⟨"d//b"⟩ = .ok source := FileTree.readText_of_readBytes_toUTF8
    (FileTree.readBytes_of_file (hlocate ⟨"d//b"⟩ List.mem_cons_self) (by rfl))
  have hfound : scanText source.toList ≠ [] := by decide +kernel
  obtain ⟨-, hentries, hspelling, hlists⟩ :=
    listed_files (h.mono (List.subset_append_left files files'))
  obtain ⟨x, hx, heq, hfs⟩ :=
    (hentries ⟨"d//b"⟩ List.mem_cons_self _).2 ⟨source, hread, rfl, hfound⟩
  have hfirst := hspelling x hx
  rw [heq] at hfirst
  have hpath : x.1 = ⟨"d//b"⟩ := Option.some.inj (hfirst.symm.trans (by decide +kernel))
  refine ⟨h, hsame, ?_, hfound, hlists files' h hsame⟩
  rwa [← hpath, ← hfs]

end ContractAudit
