import ContractAudit.Proofs.FloatOrder
import ContractAudit.Proofs.FoundContracts
import ContractAudit.Proofs.RepeatedAudits
import ContractAudit.Proofs.ShownTexts

/-!
# Which documents are found

A document is a file with one of two extensions, and its name tells what it is about.  Which
documents a project has depends on the names of its files alone: not on where they stand, on the
names of directories or on the order in which directories list what is in them.

* `IsDocumentName name`: the extension of the name is `md` or `txt`.
* `IsReadme`, `IsAboutInterface`, `IsAboutSecurity`: what a name tells, said of its bytes and not of
  the lower case of what is shown.
* `FileTree.HasDocument t root name`: a file with this name, at or below the root, is a document.
* `DocumentationPresence.IsOf p t root`: `p` says which documents there are.
* `isOf_of_walk`: that is what is found.
* `DocumentationPresence.score_eq`: the points, as a count.
* `documentation_of_perm`, `documentation_adding`: other listing orders, and more files.

The main statement is `documentation_scores`.
-/

namespace ContractAudit

open Text

/-! ## names -/

/-- something stands before a dot and one of two extensions -/
def IsDocumentName (name : RawText) : Prop :=
  ∃ stem : RawText, stem ≠ "" ∧ (name = stem ++ ".md" ∨ name = stem ++ ".txt")

/-- the name begins with readme, up to the case of ASCII -/
def IsReadme (name : RawText) : Prop :=
  ∃ w, RawText.utf8 w <+: name.bytes ∧ EqualUpToCase w "readme".toList

/-- the name has api in it, up to the case of ASCII, or ap before the I with a dot -/
def IsAboutInterface (name : RawText) : Prop :=
  (∃ w, RawText.utf8 w <:+: name.bytes ∧ EqualUpToCase w "api".toList) ∨
    ∃ w, RawText.utf8 (w ++ ['\u0130']) <:+: name.bytes ∧ EqualUpToCase w "ap".toList

/-- the name has security in it, up to the case of ASCII -/
def IsAboutSecurity (name : RawText) : Prop :=
  ∃ w, RawText.utf8 w <:+: name.bytes ∧ EqualUpToCase w "security".toList

theorem isDocumentName_iff {name : RawText} : isDocumentName name ↔ IsDocumentName name := by
  have hextension : isDocumentName name ↔
      extension? name = some ("md" : RawText) ∨ extension? name = some ("txt" : RawText) := by
    unfold isDocumentName
    cases extension? name <;> simp
  rw [hextension, extension?_eq_some_iff_of_ne (by decide) (by decide),
    extension?_eq_some_iff_of_ne (by decide) (by decide), ← exists_or]
  simp only [← and_or_left]
  rfl

/-- the case of a replacement is its own, so none is equal to a letter -/
theorem replacement_not_mem {w m : List Char} (h : EqualUpToCase w m)
    (hm : RawText.replacement ∉ m.map Char.toLower) : RawText.replacement ∉ w := by
  intro hw
  refine hm (h ▸ ?_)
  exact List.mem_map.2 ⟨RawText.replacement, hw, by decide⟩

section
variable {m : List Char} (hm : RawText.replacement ∉ m.map Char.toLower) (name : RawText)
include hm

theorem exists_prefix_text_iff : (∃ w, w <+: name.text.toList ∧ EqualUpToCase w m) ↔
    ∃ w, RawText.utf8 w <+: name.bytes ∧ EqualUpToCase w m :=
  exists_congr fun _ => and_congr_left fun h =>
    RawText.prefix_toList_text_iff (replacement_not_mem h hm) name

theorem exists_infix_text_iff : (∃ w, w <:+: name.text.toList ∧ EqualUpToCase w m) ↔
    ∃ w, RawText.utf8 w <:+: name.bytes ∧ EqualUpToCase w m :=
  exists_congr fun _ => and_congr_left fun h =>
    RawText.infix_toList_text_iff (replacement_not_mem h hm) name

theorem exists_infix_dottedI_text_iff :
    (∃ w, w ++ ['\u0130'] <:+: name.text.toList ∧ EqualUpToCase w m) ↔
      ∃ w, RawText.utf8 (w ++ ['\u0130']) <:+: name.bytes ∧ EqualUpToCase w m := by
  refine exists_congr fun w => and_congr_left fun h => RawText.infix_toList_text_iff ?_ name
  exact List.not_mem_append (replacement_not_mem h hm) (by decide)

end

namespace DocumentationPresence

section
variable {name : RawText}

theorem readme_ofName : (ofName name).readme ↔ IsDocumentName name ∧ IsReadme name := by
  rw [← isDocumentName_iff, IsReadme, ← exists_prefix_text_iff (by decide),
    ← startsWith_lowercase_iff (by decide) (by decide)]
  unfold ofName
  split_ifs with h <;> simp [h, none]

theorem apiDocs_ofName : (ofName name).apiDocs ↔ IsDocumentName name ∧ IsAboutInterface name := by
  have hsplit : "api".toList = "ap".toList ++ ['i'] := by decide
  rw [← isDocumentName_iff, IsAboutInterface, ← exists_infix_text_iff (by decide),
    ← exists_infix_dottedI_text_iff (by decide), hsplit,
    ← hasFactor_lowercase_concat_i_iff (by decide) (by decide), ← hsplit]
  unfold ofName
  split_ifs with h <;> simp [h, none]

theorem securityDocs_ofName :
    (ofName name).securityDocs ↔ IsDocumentName name ∧ IsAboutSecurity name := by
  have hsmall : lowercase "security".toList = "security".toList := by decide
  rw [← isDocumentName_iff, IsAboutSecurity, ← exists_infix_text_iff (by decide),
    ← hasFactor_lowercase_iff (by decide), hsmall]
  unfold ofName
  split_ifs with h <;> simp [h, none]

end

end DocumentationPresence

/-! ## documents -/

/-- a file with this name, at or below the root, is a document -/
def FileTree.HasDocument (t : FileTree) (root : Path) (name : RawText) : Prop :=
  IsDocumentName name ∧ ∃ file, t.HasFile root file name

namespace DocumentationPresence

/-- it says which documents there are at and below the root -/
structure IsOf (p : DocumentationPresence) (t : FileTree) (root : Path) : Prop where
  readme : p.readme ↔ ∃ name, t.HasDocument root name ∧ IsReadme name
  apiDocs : p.apiDocs ↔ ∃ name, t.HasDocument root name ∧ IsAboutInterface name
  securityDocs : p.securityDocs ↔ ∃ name, t.HasDocument root name ∧ IsAboutSecurity name

section
variable {t t' : FileTree} {root root' : Path} {p p' : DocumentationPresence}

/-- what is found at and below a root -/
theorem isOf_of_walk (ht : t.IsRooted) {entries : List (Path × Entry)}
    (hwalk : t.walk root = .ok entries) :
    (ofNames (entries.filterMap walkedFileName?)).IsOf t root := by
  have hfile (name : RawText) : name ∈ entries.filterMap walkedFileName? ↔
      ∃ file, t.HasFile root file name := by
    simp only [← exists_walked_iff_hasFile ht hwalk, List.mem_filterMap]
    exact ⟨fun ⟨x, hx, hname⟩ => ⟨x.1, x, hx, rfl, hname⟩,
      fun ⟨_, x, hx, _, hname⟩ => ⟨x, hx, hname⟩⟩
  have hany (f : RawText → Bool) (P : RawText → Prop)
      (hf : ∀ name, f name ↔ IsDocumentName name ∧ P name) :
      (entries.filterMap walkedFileName?).any f ↔ ∃ name, t.HasDocument root name ∧ P name := by
    simp only [List.any_eq_true, hfile, hf, FileTree.HasDocument]
    exact exists_congr fun name => by tauto
  rw [ofNames_eq]
  exact ⟨hany _ _ fun _ => readme_ofName, hany _ _ fun _ => apiDocs_ofName,
    hany _ _ fun _ => securityDocs_ofName⟩

theorem IsOf.eq_of_iff (h : p.IsOf t root) (h' : p'.IsOf t' root')
    (hsame : ∀ name, t'.HasDocument root' name ↔ t.HasDocument root name) : p' = p := by
  have heq {a a' : Bool} {P : RawText → Prop}
      (ha : a ↔ ∃ name, t.HasDocument root name ∧ P name)
      (ha' : a' ↔ ∃ name, t'.HasDocument root' name ∧ P name) : a' = a := by
    rw [Bool.eq_iff_iff, ha, ha']
    simp only [hsame]
  cases p
  cases p'
  simp only [mk.injEq]
  exact ⟨heq h.readme h'.readme, heq h.apiDocs h'.apiDocs, heq h.securityDocs h'.securityDocs⟩

/-! ### points -/

/-- the points as a count -/
def points (p : DocumentationPresence) : Nat :=
  40 * p.readme.toNat + 30 * p.apiDocs.toNat + 30 * p.securityDocs.toNat

theorem score_eq (p : DocumentationPresence) : (p.score : Float) = Float.ofNat p.points := by
  rcases p with ⟨readme, api, security⟩
  cases readme <;> cases api <;> cases security <;> decide +kernel

theorem points_le (p : DocumentationPresence) : p.points ≤ 100 := by
  have hreadme := p.readme.toNat_le
  have hapi := p.apiDocs.toNat_le
  have hsecurity := p.securityDocs.toNat_le
  unfold points
  omega

theorem points_le_points (hreadme : p.readme → p'.readme) (hapi : p.apiDocs → p'.apiDocs)
    (hsecurity : p.securityDocs → p'.securityDocs) : p.points ≤ p'.points := by
  have hreadme := Bool.toNat_le_toNat hreadme
  have hapi := Bool.toNat_le_toNat hapi
  have hsecurity := Bool.toNat_le_toNat hsecurity
  unfold points
  omega

/-- where there are more documents there are more points -/
theorem IsOf.points_le_points (h : p.IsOf t root) (h' : p'.IsOf t' root')
    (hmore : ∀ name, t.HasDocument root name → t'.HasDocument root' name) :
    p.points ≤ p'.points := by
  have hle {a a' : Bool} {P : RawText → Prop}
      (ha : a ↔ ∃ name, t.HasDocument root name ∧ P name)
      (ha' : a' ↔ ∃ name, t'.HasDocument root' name ∧ P name) (hthere : a) : a' := by
    obtain ⟨name, hname, hP⟩ := ha.1 hthere
    exact ha'.2 ⟨name, hmore name hname, hP⟩
  exact DocumentationPresence.points_le_points (hle h.readme h'.readme) (hle h.apiDocs h'.apiDocs)
    (hle h.securityDocs h'.securityDocs)

theorem score_le_score (h : p.points ≤ p'.points) : (p.score : Float) ≤ p'.score := by
  rw [score_eq, score_eq]
  exact FloatOrder.ofNat_le_ofNat h p'.points_le

end

end DocumentationPresence

/-- in another listing order the same documents are found -/
theorem documentation_of_perm {t t' : FileTree} (ht : t.IsSound)
    (hentries : t'.entries.Perm t.entries) (hstart : t'.workingDirectory = t.workingDirectory)
    {root : Path} {entries : List (Path × Entry)} (hwalk : t.walk root = .ok entries) :
    documentation t' root = documentation t root := by
  obtain ⟨entries', hwalk', hperm⟩ := ht.exists_walk_of_perm hentries hstart hwalk
  rw [documentation_of_walk hwalk, documentation_of_walk hwalk']
  congr 1
  exact DocumentationPresence.ofNames_congr fun _ => (hperm.filterMap _).mem_iff

/-! ## more files -/

namespace FileTree

theorem ne_link_of_isFile {e : Entry} (h : e.isFile) (target : RawText) : e ≠ .link target := by
  rintro rfl
  cases h

theorem not_cannotOpen_of_isFile {x : Path × Entry} (h : x.2.isFile) : ¬ cannotOpen x := by
  obtain ⟨p, e⟩ := x
  intro hcannot
  cases e with
  | file content => exact Bool.false_ne_true hcannot
  | lockedFile => exact Bool.false_ne_true hcannot
  | _ => exact Bool.false_ne_true h

/-- with more files a walk goes on, and still meets no error -/
theorem exists_walk_adding {t : FileTree} {root : Path} {entries : List (Path × Entry)}
    (hwalk : t.walk root = .ok entries) {files : List (Location × Entry)}
    (hfiles : ∀ x ∈ files, x.2.isFile) :
    ∃ more, (t.adding files).walk root = .ok (entries ++ more) := by
  have hkeeps : (t.adding files).Keeps t :=
    keeps_adding fun x hx => ne_link_of_isFile (hfiles x hx)
  obtain ⟨l, e, base, hl, he, hbase, h⟩ := walk_eq_ok_iff.1 hwalk
  have hl' := locate_of_keeps hkeeps hl
  have hbase' := locate_of_keeps hkeeps hbase
  have hdirectory : (t.adding files).isDirectory root ↔ t.isDirectory root := by
    rw [isDirectory_iff hbase, isDirectory_iff hbase', entry_adding]
    cases t.entry? base with
    | some d => rfl
    | none =>
      refine iff_of_false ?_ (by simp)
      rintro ⟨d, hadded, hd⟩
      rw [Option.none_or] at hadded
      obtain ⟨before, after, hsplit, -⟩ := List.lookup_eq_some_iff.1 hadded
      have hfile : d.isFile := hfiles (base, d) (by simp [hsplit])
      obtain rfl | rfl := d.eq_directory_or hd <;> cases hfile
  split at h
  · rename_i hthere
    obtain ⟨more, hmore, hadded⟩ := exists_pathsBelow_adding t files root base
    refine ⟨more, walk_eq_ok_iff.2 ⟨l, e, base, hl', entry_adding_of_some he, hbase', ?_⟩⟩
    obtain ⟨hopen, hbelow, rfl⟩ := h
    rw [if_pos (hdirectory.2 hthere), hmore]
    refine ⟨entry_adding_of_some hopen, List.forall_mem_append.2 ⟨hbelow, fun x hx => ?_⟩, rfl⟩
    obtain ⟨names, e, -, hmem, rfl⟩ := hadded x hx
    exact not_cannotOpen_of_isFile (hfiles _ hmem)
  · rename_i hthere
    refine ⟨[], walk_eq_ok_iff.2 ⟨l, e, base, hl', entry_adding_of_some he, hbase', ?_⟩⟩
    rw [if_neg (mt hdirectory.1 hthere), h]
    rfl

end FileTree

/-- no document is lost with more files -/
theorem documentation_adding {t : FileTree} {root : Path} {entries : List (Path × Entry)}
    (hwalk : t.walk root = .ok entries) {files : List (Location × Entry)}
    (hfiles : ∀ x ∈ files, x.2.isFile) :
    ∃ more, documentation (t.adding files) root =
      .ok ((DocumentationPresence.ofNames (entries.filterMap walkedFileName?)).or more) := by
  obtain ⟨more, hadding⟩ := FileTree.exists_walk_adding hwalk hfiles
  refine ⟨.ofNames (more.filterMap walkedFileName?), ?_⟩
  rw [documentation_of_walk hadding, List.filterMap_append, DocumentationPresence.ofNames_append]

/-! ## all together -/

/-- **Points for documents.**  If the walk meets no error, there are 40 points for a readme, 30 for
the interface and 30 for security, each if a file at or below the root has one of two extensions and
a name that tells so; one name may tell several.  The order in which directories list what is in
them makes no difference, and more files never cost points.  Nothing counts but the names of
documents: two trees with the same ones have the same points, whatever their directories are. -/
theorem documentation_scores {t : FileTree} (ht : t.IsRooted) {root : Path}
    {entries : List (Path × Entry)} (hwalk : t.walk root = .ok entries) :
    ¬ IsDocumentName ".md" ∧ ¬ IsDocumentName ".txt" ∧ ¬ IsDocumentName "README.MD" ∧
    ∃ p, documentation t root = .ok p ∧ p.IsOf t root ∧
      (p.score : Float) = Float.ofNat
        (40 * p.readme.toNat + 30 * p.apiDocs.toNat + 30 * p.securityDocs.toNat) ∧
      (∀ t' : FileTree, t'.entries.Perm t.entries → t'.workingDirectory = t.workingDirectory →
        documentation t' root = .ok p) ∧
      (∀ files : List (Location × Entry), (∀ x ∈ files, x.2.isFile) →
        ∃ p', documentation (t.adding files) root = .ok p' ∧ (p.score : Float) ≤ p'.score) ∧
      ∀ (t' : FileTree) (root' : Path) (entries' : List (Path × Entry)), t'.IsRooted →
        t'.walk root' = .ok entries' → ∃ p', documentation t' root' = .ok p' ∧
          ((∀ name, t.HasDocument root name → t'.HasDocument root' name) →
            (p.score : Float) ≤ p'.score) ∧
          ((∀ name, t'.HasDocument root' name ↔ t.HasDocument root name) → p' = p) := by
  have hof := DocumentationPresence.isOf_of_walk ht hwalk
  refine ⟨mt isDocumentName_iff.2 (by decide), mt isDocumentName_iff.2 (by decide),
    mt isDocumentName_iff.2 (by decide), _, documentation_of_walk hwalk, hof,
    DocumentationPresence.score_eq _, ?_, ?_, ?_⟩
  · intro t' hentries hstart
    rw [documentation_of_perm ht.toIsSound hentries hstart hwalk, documentation_of_walk hwalk]
  · intro files hfiles
    obtain ⟨more, hmore⟩ := documentation_adding hwalk hfiles
    refine ⟨_, hmore, DocumentationPresence.score_le_score ?_⟩
    refine DocumentationPresence.points_le_points ?_ ?_ ?_ <;>
      exact fun h => Bool.or_eq_true_iff.2 (.inl h)
  · intro t' root' entries' ht' hwalk'
    have hof' := DocumentationPresence.isOf_of_walk ht' hwalk'
    refine ⟨_, documentation_of_walk hwalk', fun hmore => ?_, fun hsame => hof.eq_of_iff hof' hsame⟩
    exact DocumentationPresence.score_le_score (hof.points_le_points hof' hmore)

/-- one file counts twice, with an I with a dot behind ap; a directory, a link and files with other
extensions do not count -/
theorem documentation_scores_dottedI :
    let t : FileTree :=
      ⟨[(["p"], .directory), (["p", "security.md"], .directory),
        (["p", "security.md", "Readme-aP\u0130.txt"], .file .empty),
        (["p", "Security.txt"], .link "security.md/Readme-aP\u0130.txt"),
        (["p", "SECURITY.MD"], .file .empty), (["p", ".md"], .lockedFile)], []⟩
    let root : Path := ⟨"p"⟩
    ∃ p, documentation t root = .ok p ∧ p.readme ∧ p.apiDocs ∧
      (¬ ∃ name, t.HasDocument root name ∧ IsAboutSecurity name) ∧
      (p.score : Float) = Float.ofNat 70 := by
  intro t root
  have ht : t.IsRooted := by decide
  have hbase : t.locate .followed root = .ok ["p"] := by cbv
  have hwalk : t.walk root = .ok ((root, .directory) :: t.pathsBelow root ["p"]) :=
    FileTree.walk_of_directory (by cbv) rfl hbase rfl (by decide)
  have hfound : documentation t root = .ok ⟨true, true, false⟩ := by
    rw [documentation_of_walk hwalk]
    decide +kernel
  obtain ⟨-, -, -, p, hp, hof, hscore, -⟩ := documentation_scores ht hwalk
  obtain rfl := Except.ok.inj (hfound.symm.trans hp)
  exact ⟨_, hp, rfl, rfl, fun h => Bool.false_ne_true (hof.securityDocs.2 h), hscore⟩

/-- A name that is no text tells what is shown of it.  A root that is a link to a document is a
link, and no document. -/
theorem documentation_of_name_without_text :
    let name : RawText := ⟨RawText.utf8 "readme".toList ++ 0xFF :: RawText.utf8 ".md".toList⟩
    let t : FileTree :=
      ⟨[(["p"], .directory), (["p", name], .file .empty), (["readme.md"], .file .empty),
        (["readme.txt"], .link "readme.md")], []⟩
    (∃ p, documentation t ⟨"p"⟩ = .ok p ∧ (p.score : Float) = Float.ofNat 40 ∧
      ∀ name, t.HasDocument ⟨"p"⟩ name → ¬ name.IsUtf8) ∧
    (t.locate .followed ⟨"readme.txt"⟩ = .ok ["readme.md"] ∧
      ∃ p, documentation t ⟨"readme.txt"⟩ = .ok p ∧ (p.score : Float) = Float.ofNat 0) := by
  intro name t
  have ht : t.IsRooted := by decide
  have hbase : t.locate .followed ⟨"p"⟩ = .ok ["p"] := by cbv
  have hwalk : t.walk ⟨"p"⟩ = .ok ((⟨"p"⟩, .directory) :: t.pathsBelow ⟨"p"⟩ ["p"]) :=
    FileTree.walk_of_directory (by cbv) rfl hbase rfl (by decide)
  have hlink : t.locate .followed ⟨"readme.txt"⟩ = .ok ["readme.md"] := by cbv
  refine ⟨⟨⟨true, false, false⟩, ?_, DocumentationPresence.score_eq _, ?_⟩, hlink, .none, ?_,
    DocumentationPresence.score_eq _⟩
  · rw [documentation_of_walk hwalk]
    decide +kernel
  · rintro name' ⟨-, file, hfile⟩
    obtain ⟨x, hx, -, hname⟩ := (exists_walked_iff_hasFile ht hwalk).2 hfile
    have hnames : ((⟨"p"⟩, .directory) :: t.pathsBelow ⟨"p"⟩ ["p"]).filterMap walkedFileName? =
      [name] := by decide +kernel
    obtain rfl := List.mem_singleton.1 (hnames ▸ List.mem_filterMap.2 ⟨x, hx, hname⟩)
    decide +kernel
  · have hnodirectory : ¬ t.isDirectory ⟨"readme.txt"⟩ := by
      rintro h
      obtain ⟨_, hentry, hdirectory⟩ := (FileTree.isDirectory_iff hlink).1 h
      obtain rfl := Option.some.inj hentry
      cases hdirectory
    have hwalk : t.walk ⟨"readme.txt"⟩ = .ok [(⟨"readme.txt"⟩, .link "readme.md")] := by
      refine FileTree.walk_eq_ok_iff.2
        ⟨["readme.txt"], .link "readme.md", _, by cbv, rfl, hlink, ?_⟩
      rw [if_neg hnodirectory]
    rw [documentation_of_walk hwalk]
    rfl

end ContractAudit
