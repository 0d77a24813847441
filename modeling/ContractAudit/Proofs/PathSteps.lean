import ContractAudit.FileTree.Edit
import ContractAudit.Proofs.FoundContracts

/-!
# Steps of paths below a directory

A path that goes on below another first leads where that one leads, and then down.

* `Path.steps_join`, `Path.isAbsolute_join`: a path below another has one step more.
* `FileTree.steps_pathBelow`: so has every path that a walk spells.
* `FileTree.follow_append`: more steps go on from the place that the first ones lead to.
* `FileTree.locate_pathBelow`: where the path of a file on a walk leads, which depends on nothing
  but its names and on the length of the path.
* `FileTree.readText_pathBelow_congr`: so does what is read there.
* `Path.afterDots`, `FileTree.locate_afterDots`: a path with dots in front of it is longer, and
  leads to the same place.
-/

namespace ContractAudit

/-! ## steps -/

namespace PathStep

/-- the steps of the pieces that are not empty -/
def ofSolid (ps : List (List UInt8)) : List PathStep := (ps.filter (· ≠ [])).map ofPieces.ofPiece

theorem ofPieces_concat (ps : List (List UInt8)) (q : List UInt8) :
    ofPieces (ps ++ [q]) = ofSolid ps ++ if q = [] then [slash] else [ofPieces.ofPiece q] := by
  unfold ofSolid
  induction ps with
  | nil => rfl
  | cons p ps ih =>
    obtain ⟨r, rs, h⟩ := List.exists_cons_of_ne_nil (List.append_ne_nil_of_right_ne_nil ps
      (List.cons_ne_nil q []))
    rw [List.cons_append, h, ofPieces, ← h, ih]
    split
    · rename_i hp
      rw [List.filter_cons_of_neg (by simp [hp])]
    · rename_i hp
      rw [List.filter_cons_of_pos (by simp [hp])]
      rfl

theorem ofPiece_ne_slash (p : List UInt8) : ofPieces.ofPiece p ≠ slash := by
  unfold ofPieces.ofPiece
  split_ifs <;> simp

theorem withoutSlash_ofPieces (ps : List (List UInt8)) :
    FileTree.withoutSlash (ofPieces ps) = ofSolid ps := by
  rcases List.eq_nil_or_concat' ps with rfl | ⟨ps, q, rfl⟩
  · rfl
  · unfold FileTree.withoutSlash
    rw [ofPieces_concat]
    split
    · rename_i hq
      subst hq
      simp [ofSolid]
    · rename_i hq
      rw [List.getLast?_concat, if_neg (by simp [ofPiece_ne_slash]), ofSolid, ofSolid,
        List.filter_append, List.map_append]
      simp [hq]

theorem ofPiece_of_isName {name : RawText} (h : IsName name) :
    ofPieces.ofPiece name.bytes = down name := by
  have hne (t : RawText) (ht : name ≠ t) : name.bytes ≠ t.bytes :=
    fun h => ht (RawText.bytes_inj.1 h)
  have hdot : name.bytes ≠ [dotByte] := hne "." h.2.1
  have hdots : name.bytes ≠ [dotByte, dotByte] := hne ".." h.2.2.1
  unfold ofPieces.ofPiece
  rw [if_neg hdot, if_neg hdots]

end PathStep

namespace Path

variable {p : Path} {name : RawText}

theorem isAbsolute_of_isName (h : IsName name) : (Path.ofRaw name).isAbsolute = false := by
  rw [Bool.eq_false_iff]
  intro habsolute
  refine h.2.2.2 (List.mem_of_mem_head? ?_)
  exact beq_iff_eq.1 habsolute

theorem isAbsolute_join (h : IsName name) : (p.join ⟨name⟩).isAbsolute = p.isAbsolute := by
  unfold join
  rw [isAbsolute_of_isName h]
  by_cases hp : p.raw.isEmpty
  · rw [if_pos (.inr hp), isAbsolute_of_isName h, isAbsolute, RawText.isEmpty_iff.1 hp]
    rfl
  · rw [if_neg (by simp [hp])]
    split
    · exact isAbsolute_append hp name
    · rw [RawText.append_assoc]
      exact isAbsolute_append hp _

/-- the pieces of a path below another end with its name, and the others have the same steps -/
theorem exists_splitSlash_join (h : IsName name) : ∃ ps,
    splitSlash (p.join ⟨name⟩).raw.bytes = ps ++ [name.bytes] ∧
      PathStep.ofSolid ps = PathStep.ofSolid (splitSlash p.raw.bytes) := by
  have hname := splitSlash_of_not_mem h.2.2.2
  unfold join
  rw [isAbsolute_of_isName h]
  by_cases hp : p.raw.isEmpty
  · rw [if_pos (.inr hp), RawText.isEmpty_iff.1 hp]
    exact ⟨[], hname, rfl⟩
  · rw [if_neg (by simp [hp])]
    split
    · rename_i hslash
      obtain ⟨a, ha⟩ := List.getLast?_eq_some_iff.1 hslash
      refine ⟨splitSlash a, ?_, ?_⟩
      · show splitSlash (p.raw ++ name).bytes = _
        rw [RawText.bytes_append, ha, List.append_assoc, List.singleton_append, splitSlash_append,
          hname]
      · rw [ha, splitSlash_append, splitSlash_nil, PathStep.ofSolid, PathStep.ofSolid,
          List.filter_append]
        simp
    · refine ⟨splitSlash p.raw.bytes, ?_, rfl⟩
      show splitSlash (p.raw ++ "/" ++ name).bytes = _
      rw [RawText.bytes_append, RawText.bytes_append, List.append_assoc]
      show splitSlash (p.raw.bytes ++ slashByte :: name.bytes) = _
      rw [splitSlash_append, hname]

theorem steps_join (h : IsName name) :
    (p.join ⟨name⟩).steps = FileTree.withoutSlash p.steps ++ [.down name] := by
  obtain ⟨ps, hps, hsame⟩ := exists_splitSlash_join (p := p) h
  have hne : name.bytes ≠ [] := fun hnil => h.1 (RawText.bytes_inj.1 hnil)
  unfold steps
  rw [hps, PathStep.ofPieces_concat, if_neg hne, PathStep.ofPiece_of_isName h, hsame,
    PathStep.withoutSlash_ofPieces]

end Path

namespace FileTree

section
variable {root : Path} {names : Location}

theorem isAbsolute_pathBelow (h : ∀ name ∈ names, IsName name) :
    (pathBelow root names).isAbsolute = root.isAbsolute := by
  induction names generalizing root with
  | nil => rfl
  | cons name names ih =>
    rw [pathBelow_cons, ih fun n hn => h n (List.mem_cons_of_mem name hn)]
    exact Path.isAbsolute_join (h name List.mem_cons_self)

theorem withoutSlash_concat_down (steps : List PathStep) (name : RawText) :
    withoutSlash (steps ++ [.down name]) = steps ++ [.down name] := by
  unfold withoutSlash
  rw [List.getLast?_concat]
  exact if_neg (by simp)

theorem steps_pathBelow (h : ∀ name ∈ names, IsName name) :
    withoutSlash (pathBelow root names).steps =
      withoutSlash root.steps ++ names.map PathStep.down := by
  induction names generalizing root with
  | nil => exact (List.append_nil _).symm
  | cons name names ih =>
    rw [pathBelow_cons, ih fun n hn => h n (List.mem_cons_of_mem name hn),
      Path.steps_join (h name List.mem_cons_self), withoutSlash_concat_down, List.append_assoc]
    rfl

theorem steps_pathBelow_of_ne_nil (h : ∀ name ∈ names, IsName name) (hne : names ≠ []) :
    (pathBelow root names).steps = withoutSlash root.steps ++ names.map PathStep.down := by
  obtain ⟨above, name, rfl⟩ := (List.eq_nil_or_concat' names).resolve_left hne
  have habove : ∀ n ∈ above, IsName n := fun n hn => h n (List.mem_append_left [name] hn)
  have hpath : pathBelow root (above ++ [name]) = (pathBelow root above).join ⟨name⟩ := by
    unfold pathBelow
    rw [List.foldl_append]
    rfl
  rw [hpath, Path.steps_join (h name (by simp)), steps_pathBelow habove, List.map_append,
    List.append_assoc]
  rfl

theorem mem_raw_pathBelow {b : UInt8} (hb : b ≠ slashByte) (h : ∀ name ∈ names, IsName name) :
    b ∈ (pathBelow root names).raw.bytes ↔
      b ∈ root.raw.bytes ∨ ∃ name ∈ names, b ∈ name.bytes := by
  induction names generalizing root with
  | nil => simp [pathBelow]
  | cons name names ih =>
    have hjoin : b ∈ (root.join ⟨name⟩).raw.bytes ↔
        b ∈ root.raw.bytes ∨ b ∈ name.bytes := by
      unfold Path.join
      rw [Path.isAbsolute_of_isName (h name List.mem_cons_self)]
      by_cases hroot : root.raw.isEmpty
      · rw [if_pos (.inr hroot), RawText.isEmpty_iff.1 hroot]
        simp
      · rw [if_neg (by simp [hroot])]
        split
        · show b ∈ (root.raw ++ name).bytes ↔ _
          rw [RawText.bytes_append, List.mem_append]
        · show b ∈ (root.raw ++ "/" ++ name).bytes ↔ _
          rw [RawText.bytes_append, RawText.bytes_append, List.mem_append, List.mem_append]
          simp [hb]
    rw [pathBelow_cons, ih fun n hn => h n (List.mem_cons_of_mem name hn), hjoin]
    simp [or_assoc]

end

/-! ## going on -/

section
variable {t : FileTree} {links : Nat} {place base : Location} {steps : List PathStep}

theorem follow_of_follow_slash
    (h : t.follow .followed links place (steps ++ [.slash]) = .ok base) :
    t.follow .followed links place steps = .ok base := by
  fun_induction t.follow .followed links place steps with
  | case1 =>
    rwa [List.nil_append, follow, follow] at h
  | _ =>
    rw [List.cons_append, follow] at h
    grind [List.append_eq_nil_iff]

theorem follow_withoutSlash (h : t.follow .followed links place steps = .ok base) :
    t.follow .followed links place (withoutSlash steps) = .ok base := by
  unfold withoutSlash
  split
  · rename_i hlast
    obtain ⟨before, rfl⟩ := List.getLast?_eq_some_iff.1 hlast
    rw [List.dropLast_concat]
    exact follow_of_follow_slash h
  · exact h

/-- more steps go on from the directory that the first ones lead to, with fewer links left -/
theorem follow_append (h : t.follow .followed links place steps = .ok base)
    (hbase : t.entry? base = some .directory) : ∃ left, ∀ purpose more, purpose ≠ .fullPath →
      more ≠ [] → more ≠ [.slash] →
      t.follow purpose links place (steps ++ more) = t.follow purpose left base more := by
  -- a step that could end a way does not, since more steps follow it
  have hrest (rest more : List PathStep) (hne : more ≠ []) (hslash : more ≠ [.slash]) :
      rest ++ more ≠ [] ∧ rest ++ more ≠ [.slash] := by
    cases rest <;> simp [hne, hslash]
  fun_induction t.follow .followed links place steps with
  | case1 =>
    obtain rfl := Except.ok.inj h
    exact ⟨_, fun _ _ _ _ _ => rfl⟩
  | case2 links place rest ih | case3 links place rest ih | case4 links place rest ih =>
    obtain ⟨left, hleft⟩ := ih h
    refine ⟨left, fun purpose more hpurpose hne hslash => ?_⟩
    rw [List.cons_append, follow, hleft purpose more hpurpose hne hslash]
  | case10 links place name rest there hname hfull hfresh hentry ih =>
    obtain ⟨left, hleft⟩ := ih h
    refine ⟨left, fun purpose more hpurpose hne hslash => ?_⟩
    obtain ⟨-, hslash'⟩ := hrest rest more hne hslash
    rw [List.cons_append, follow, if_neg hname, if_neg (by simp [hpurpose]),
      if_neg (by simp [hslash'])]
    simp only [there] at hentry
    simp only [hentry]
    exact hleft purpose more hpurpose hne hslash
  | case19 place name rest there hname hfull hfresh target hentry hasItIs links target' ih =>
    obtain ⟨left, hleft⟩ := ih h
    refine ⟨left, fun purpose more hpurpose hne hslash => ?_⟩
    obtain ⟨hne', hslash'⟩ := hrest rest more hne hslash
    rw [List.cons_append, follow, if_neg hname, if_neg (by simp [hpurpose]),
      if_neg (by simp [hslash'])]
    simp only [there] at hentry
    simp only [hentry]
    rw [if_neg (by simp [hne']), ← List.append_assoc]
    exact hleft purpose more hpurpose hne hslash
  -- the other steps end the way, with an error or at what is no directory
  | _ => grind

/-- a path below a directory leads to where its names lead from there -/
theorem exists_locate_pathBelow {root : Path} {names : Location}
    (hroot : t.locate .followed root = .ok base) (hbase : t.entry? base = some .directory)
    (hnames : ∀ name ∈ names, IsName name) (hne : names ≠ []) :
    ∃ left, ∀ purpose, purpose ≠ .fullPath → t.locate purpose (pathBelow root names) =
      if ∃ name ∈ names, 0 ∈ name.bytes then .error .zeroCharacter
      else if isTooLong (pathBelow root names) then .error .nameTooLong
      else t.follow purpose left base (names.map PathStep.down) := by
  have hempty := not_isEmpty_of_locate hroot
  unfold locate at hroot
  split_ifs at hroot with hzero hlong
  obtain ⟨left, hleft⟩ := follow_append (follow_withoutSlash hroot) hbase
  refine ⟨left, fun purpose hpurpose => ?_⟩
  have hstart : t.startOf (pathBelow root names) = t.startOf root := by
    unfold startOf
    rw [isAbsolute_pathBelow hnames]
  have hzero' : (pathBelow root names).raw.bytes.contains 0 ↔
      ∃ name ∈ names, 0 ∈ name.bytes := by
    rw [List.contains_iff_mem, mem_raw_pathBelow (by decide) hnames]
    rw [List.contains_iff_mem] at hzero
    simp [hzero]
  unfold locate
  rw [if_neg (not_isEmpty_pathBelow hempty names), hstart, steps_pathBelow_of_ne_nil hnames hne,
    hleft purpose _ hpurpose (by simpa using hne) ?_]
  · simp only [hzero']
  · intro hslash
    have hmem : PathStep.slash ∈ names.map PathStep.down := by
      rw [hslash]
      exact List.mem_cons_self
    simp at hmem

/-! ## files on a walk -/

variable {names : Location} {e : Entry}

theorem Reaches.ne_nil (h : t.Reaches base names e) (he : e.isFile) : names ≠ [] := by
  cases h with
  | here h => cases he
  | down _ _ => simp

/-- what is reached over a first name is reached from the place of that name -/
theorem Reaches.uncons {name : RawText} (h : t.Reaches base (name :: names) e) :
    t.entry? base = some .directory ∧
      (names = [] ∧ t.entry? (base ++ [name]) = some e ∨
        names ≠ [] ∧ t.Reaches (base ++ [name]) names e) := by
  refine ⟨h.base_directory, ?_⟩
  generalize hall : name :: names = all at h
  induction h generalizing names with
  | here h => cases hall
  | @down above last e habove hentry ih =>
    cases above with
    | nil =>
      obtain ⟨rfl, rfl⟩ := List.cons.inj hall
      exact .inl ⟨rfl, hentry⟩
    | cons first above =>
      obtain ⟨rfl, rfl⟩ := List.cons.inj hall
      refine .inr ⟨by simp, ?_⟩
      have hentry' : t.entry? ((base ++ [name]) ++ (above ++ [last])) = some e := by
        simpa using hentry
      rcases ih rfl with ⟨rfl, hdirectory⟩ | ⟨-, hreaches⟩
      · exact .down (.here hdirectory) hentry'
      · exact .down hreaches hentry'

theorem Reaches.mono {t' : FileTree} (hkeep : ∀ l e, t.entry? l = some e → t'.entry? l = some e)
    (h : t.Reaches base names e) : t'.Reaches base names e := by
  induction h with
  | here h => exact .here (hkeep _ _ h)
  | down _ h ih => exact .down ih (hkeep _ _ h)

theorem follow_names (h : t.Reaches base names e) (he : e.isFile) (left : Nat) :
    t.follow .followed left base (names.map PathStep.down) =
      if ∃ name ∈ names, maxNameBytes < name.size then .error .nameTooLong
      else .ok (base ++ names) := by
  induction names generalizing base with
  | nil => exact absurd rfl (h.ne_nil he)
  | cons name names ih =>
    rw [List.map_cons, follow]
    by_cases hname : maxNameBytes < name.size
    · rw [if_pos hname, if_pos ⟨name, List.mem_cons_self, hname⟩]
    · rw [if_neg hname, if_neg (by simp), if_neg (by simp)]
      have hmore : (∃ n ∈ name :: names, maxNameBytes < n.size) ↔
          ∃ n ∈ names, maxNameBytes < n.size := by
        simp [hname]
      simp only [hmore]
      obtain ⟨-, ⟨rfl, hentry⟩ | ⟨hne, hreaches⟩⟩ := h.uncons
      · rw [if_neg (by simp)]
        cases e with
        | file content => simp [hentry]
        | lockedFile => simp [hentry]
        | directory => cases he
        | lockedDirectory => cases he
        | link target => cases he
      · simp only [hreaches.base_directory]
        rw [ih hreaches, List.append_assoc]
        rfl

/-- where the path of a file on a walk leads -/
theorem locate_pathBelow {root : Path} (hroot : t.locate .followed root = .ok base)
    (hnames : ∀ name ∈ names, IsName name) (h : t.Reaches base names e) (he : e.isFile) :
    t.locate .followed (pathBelow root names) =
      if ∃ name ∈ names, 0 ∈ name.bytes then .error .zeroCharacter
      else if isTooLong (pathBelow root names) then .error .nameTooLong
      else if ∃ name ∈ names, maxNameBytes < name.size then .error .nameTooLong
      else .ok (base ++ names) := by
  obtain ⟨left, hleft⟩ :=
    exists_locate_pathBelow hroot h.base_directory hnames (h.ne_nil he)
  rw [hleft .followed (by simp), follow_names h he]

theorem readText_of_locate_error {p : Path} {e : IoError} (h : t.locate .followed p = .error e) :
    t.readText p = .error e := by
  unfold readText readBytes
  rw [h]
  rfl

/-- what is read of a file on a walk depends on its names, unless one path is too long -/
theorem readText_pathBelow_congr {t' : FileTree} {root root' : Path} {base' : Location}
    (hroot : t.locate .followed root = .ok base) (hroot' : t'.locate .followed root' = .ok base')
    (hnames : ∀ name ∈ names, IsName name) (h : t.Reaches base names e)
    (h' : t'.Reaches base' names e) (he : e.isFile)
    (hlong : isTooLong (pathBelow root' names) = isTooLong (pathBelow root names)) :
    t'.readText (pathBelow root' names) = t.readText (pathBelow root names) := by
  have hlocate := locate_pathBelow hroot hnames h he
  have hlocate' := locate_pathBelow hroot' hnames h' he
  rw [hlong] at hlocate'
  split_ifs at hlocate hlocate'
  · rw [readText_of_locate_error hlocate, readText_of_locate_error hlocate']
  · rw [readText_of_locate_error hlocate, readText_of_locate_error hlocate']
  · rw [readText_of_locate_error hlocate, readText_of_locate_error hlocate']
  · exact readText_congr hlocate' hlocate (h'.entry_eq.trans h.entry_eq.symm)

end

end FileTree

/-! ## dots in front of a path -/

namespace Path

/-- the path with dots in front of it, which lead nowhere -/
def afterDots : Nat → Path → Path
  | 0, p => p
  | n + 1, p => ⟨"./" ++ (afterDots n p).raw⟩

section
variable {n : Nat} {p : Path}

theorem bytes_afterDots_succ (n : Nat) (p : Path) :
    (afterDots (n + 1) p).raw.bytes = dotByte :: slashByte :: (afterDots n p).raw.bytes := rfl

theorem size_afterDots (n : Nat) (p : Path) : (afterDots n p).raw.size = 2 * n + p.raw.size := by
  unfold RawText.size
  induction n with
  | zero => simp [afterDots]
  | succ n ih =>
    rw [bytes_afterDots_succ, List.length_cons, List.length_cons, ih]
    omega

theorem isAbsolute_afterDots (hp : p.isAbsolute = false) : (afterDots n p).isAbsolute = false := by
  cases n with
  | zero => exact hp
  | succ n =>
    unfold isAbsolute
    rw [bytes_afterDots_succ]
    rfl

theorem mem_raw_afterDots {b : UInt8} (hb : b ∉ [dotByte, slashByte]) :
    b ∈ (afterDots n p).raw.bytes ↔ b ∈ p.raw.bytes := by
  induction n with
  | zero => rfl
  | succ n ih =>
    rw [List.mem_cons, List.mem_singleton, not_or] at hb
    rw [bytes_afterDots_succ, List.mem_cons, or_iff_right hb.1, List.mem_cons, or_iff_right hb.2,
      ih]

theorem not_isEmpty_afterDots (hp : ¬ p.raw.isEmpty) : ¬ (afterDots n p).raw.isEmpty := by
  cases n with
  | zero => exact hp
  | succ n =>
    intro h
    have hnil := RawText.isEmpty_iff.1 h
    rw [bytes_afterDots_succ] at hnil
    cases hnil

theorem steps_afterDots (n : Nat) (p : Path) :
    (afterDots n p).steps = List.replicate n .stay ++ p.steps := by
  induction n with
  | zero => rfl
  | succ n ih =>
    obtain ⟨q, qs, hsplit⟩ :=
      List.exists_cons_of_ne_nil (splitSlash_ne_nil (afterDots n p).raw.bytes)
    have hpieces : splitSlash (afterDots (n + 1) p).raw.bytes = [dotByte] :: q :: qs := by
      rw [bytes_afterDots_succ]
      show splitSlash ([dotByte] ++ slashByte :: (afterDots n p).raw.bytes) = _
      rw [splitSlash_append, hsplit]
      rfl
    rw [steps, hsplit] at ih
    rw [steps, hpieces, List.replicate_succ, List.cons_append, ← ih]
    rfl

end

end Path

namespace FileTree

theorem follow_stays (t : FileTree) (purpose : Purpose) (links n : Nat) (place : Location)
    (steps : List PathStep) :
    t.follow purpose links place (List.replicate n .stay ++ steps) =
      t.follow purpose links place steps := by
  induction n with
  | zero => rfl
  | succ n ih => rw [List.replicate_succ, List.cons_append, follow, ih]

/-- dots in front of a path make no difference, as long as it is not too long -/
theorem locate_afterDots {t : FileTree} {purpose : Purpose} {p : Path}
    (hp : p.isAbsolute = false) (hne : ¬ p.raw.isEmpty) {n : Nat}
    (hshort : 2 * n + p.raw.size < maxPathBytes) :
    t.locate purpose (p.afterDots n) = t.locate purpose p := by
  have hzero : (p.afterDots n).raw.bytes.contains 0 = p.raw.bytes.contains 0 := by
    rw [Bool.eq_iff_iff, List.contains_iff_mem, List.contains_iff_mem,
      Path.mem_raw_afterDots (by decide)]
  have hlong : ¬ isTooLong p := by
    unfold isTooLong
    simp only [decide_eq_true_eq]
    omega
  have hlong' : ¬ isTooLong (p.afterDots n) := by
    unfold isTooLong
    rw [Path.size_afterDots]
    simp only [decide_eq_true_eq]
    omega
  have hstart : t.startOf (p.afterDots n) = t.startOf p := by
    unfold startOf
    rw [Path.isAbsolute_afterDots hp, hp]
  unfold locate
  rw [if_neg (Path.not_isEmpty_afterDots hne), if_neg hne, hzero, if_neg hlong, if_neg hlong',
    hstart, Path.steps_afterDots, follow_stays]

theorem le_size_join {p : Path} (hp : ¬ p.raw.isEmpty) {name : RawText} (hname : IsName name) :
    p.raw.size + name.size ≤ (p.join ⟨name⟩).raw.size := by
  unfold Path.join
  rw [if_neg (by simp [hp, Path.isAbsolute_of_isName hname])]
  split
  · show _ ≤ (p.raw ++ name).size
    rw [RawText.size_append]
  · show _ ≤ (p.raw ++ "/" ++ name).size
    rw [RawText.size_append, RawText.size_append]
    omega

theorem isTooLong_afterDots {p : Path} (hp : ¬ p.raw.isEmpty) {n : Nat} {name : RawText}
    (hname : IsName name)
    (hlong : maxPathBytes ≤ 2 * n + p.raw.size + name.size) :
    isTooLong (pathBelow (p.afterDots n) [name]) := by
  have hle := le_size_join (Path.not_isEmpty_afterDots (n := n) hp) hname
  rw [Path.size_afterDots] at hle
  unfold isTooLong
  exact decide_eq_true (hlong.trans hle)

theorem cannotOpen_afterDots {p : Path} (hp : ¬ p.raw.isEmpty) {n : Nat} {name : RawText}
    (hname : IsName name)
    (hlong : maxPathBytes ≤ 2 * n + p.raw.size + name.size) :
    cannotOpen (pathBelow (p.afterDots n) [name], .directory) :=
  isTooLong_afterDots hp hname hlong

end FileTree

end ContractAudit
