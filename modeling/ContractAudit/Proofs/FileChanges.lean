import ContractAudit.Proofs.PathSteps

/-!
# What changes to a file tree leave alone

Making directories adds entries, and writing a file changes one.  Every path that led somewhere
before still leads there.

* `FileTree.adding t added`: the tree with more entries.
* `FileTree.Keeps t' t`: `t'` keeps the entries of `t` apart from what files hold, and has no
  other links.
* `FileTree.locate_of_keeps`: what is found in `t` is found in `t'`.
* `FileTree.Writes t' t p content l`: `t'` is `t` with a file written at the place of a path.
* `FileTree.exists_of_writeFile_join`: that is what writing a file below a directory does.
* `FileTree.LeadsTo t directory above`: a path leads to a directory, or is empty.
* `FileTree.exists_of_locate_fresh_join`: the file lies directly in that directory.
* `FileTree.AddsDirectories t' t`: `t'` has nothing but more directories.
* `FileTree.addsDirectories_makeDirectories`: that is what making directories does.
-/

namespace ContractAudit

namespace FileTree

/-! ## entries -/

section
variable {t : FileTree} {l : Location} {e : Entry} {added : List (Location × Entry)}

/-- the tree with more entries -/
def adding (t : FileTree) (added : List (Location × Entry)) : FileTree :=
  { t with entries := t.entries ++ added }

theorem adding_nil (t : FileTree) : t.adding [] = t := by
  unfold adding
  rw [List.append_nil]

theorem adding_adding (t : FileTree) (added more : List (Location × Entry)) :
    (t.adding added).adding more = t.adding (added ++ more) := by
  unfold adding
  rw [List.append_assoc]

theorem entry_adding (t : FileTree) (added : List (Location × Entry)) (l : Location) :
    FileTree.entry? (t.adding added) l = ( t.entry? l).or (added.lookup l) := by
  unfold entry? adding
  split
  · rfl
  · exact List.lookup_append

theorem entry_adding_of_some {added : List (Location × Entry)} {e : Entry}
    (h : t.entry? l = some e) : FileTree.entry? (t.adding added) l = some e := by
  rw [entry_adding, h]
  rfl

theorem any_entries_iff (hl : l ≠ []) :
    t.entries.any (·.1 == l) ↔ ( t.entry? l).isSome := by
  unfold entry?
  rw [if_neg hl]
  induction t.entries with
  | nil => simp
  | cons x entries ih =>
    rw [List.any_cons, List.lookup_cons]
    by_cases hx : x.1 = l
    · simp [hx]
    · have hxl : ¬ l = x.1 := fun h => hx h.symm
      simp only [beq_eq_false_iff_ne.2 hx, beq_eq_false_iff_ne.2 hxl, Bool.false_or]
      exact ih

theorem insert_of_entry_eq_none (hl : l ≠ []) (h : t.entry? l = none) (e : Entry) :
    t.insert l e = t.adding [(l, e)] := by
  unfold insert adding
  apply if_neg
  rw [any_entries_iff hl, h]
  simp

theorem lookup_map_ite (entries : List (Location × Entry)) (l l' : Location) (e : Entry)
    (h : l' ≠ l) :
    (entries.map fun x => if x.1 = l then (l, e) else x).lookup l' = entries.lookup l' := by
  induction entries with
  | nil => rfl
  | cons x entries ih =>
    rw [List.map_cons, List.lookup_cons]
    by_cases hx : x.1 = l
    · rw [if_pos hx, List.lookup_cons, ih, hx]
      simp only [beq_eq_false_iff_ne.2 h]
    · rw [if_neg hx, List.lookup_cons, ih]

theorem lookup_map_ite_self (entries : List (Location × Entry)) (l : Location) (e : Entry)
    (h : entries.any (·.1 == l)) :
    (entries.map fun x => if x.1 = l then (l, e) else x).lookup l = some e := by
  induction entries with
  | nil => cases h
  | cons x entries ih =>
    rw [List.map_cons]
    by_cases hx : x.1 = l
    · rw [if_pos hx]
      exact List.lookup_cons_self
    · have hxl : ¬ l = x.1 := fun h => hx h.symm
      rw [if_neg hx, List.lookup_cons]
      simp only [beq_eq_false_iff_ne.2 hxl]
      rw [List.any_cons] at h
      exact ih (by simpa [hx] using h)

theorem entry_insert (hl : l ≠ []) (e : Entry) (l' : Location) :
    FileTree.entry? (t.insert l e) l' = if l' = l then some e else t.entry? l' := by
  by_cases hthere : t.entries.any (·.1 == l)
  · have hinsert : t.insert l e =
        { t with entries := t.entries.map fun x => if x.1 = l then (l, e) else x } :=
      if_pos hthere
    rw [hinsert]
    unfold entry?
    by_cases hl' : l' = l
    · subst hl'
      rw [if_neg hl, if_pos rfl]
      exact lookup_map_ite_self t.entries l' e hthere
    · rw [if_neg hl']
      split
      · rfl
      · exact lookup_map_ite t.entries l l' e hl'
  · have hnone : t.entry? l = none := by
      rw [any_entries_iff hl] at hthere
      simpa using hthere
    rw [insert_of_entry_eq_none hl hnone, entry_adding]
    by_cases hl' : l' = l
    · rw [if_pos hl', hl', hnone]
      simp
    · rw [if_neg hl', List.lookup_cons]
      simp only [beq_eq_false_iff_ne.2 hl', List.lookup_nil, Option.or_none]

end

/-! ## trees that keep their entries -/

/-- `t'` keeps the entries of `t` apart from what files hold, and has no other links -/
structure Keeps (t' t : FileTree) : Prop where
  workingDirectory : t'.workingDirectory = t.workingDirectory
  entry : ∀ l, ( t'.entry? l).map Entry.bare = ( t.entry? l).map Entry.bare ∨
    t.entry? l = none ∧ ∀ target, t'.entry? l ≠ some (.link target)

section
variable {t t' : FileTree}

theorem keeps_adding {added : List (Location × Entry)}
    (h : ∀ x ∈ added, ∀ target, x.2 ≠ .link target) : (t.adding added).Keeps t := by
  refine ⟨rfl, fun l => ?_⟩
  rw [entry_adding]
  cases he : t.entry? l with
  | some e => exact .inl rfl
  | none =>
    refine .inr ⟨rfl, fun target htarget => ?_⟩
    rw [Option.none_or, List.lookup_eq_some_iff] at htarget
    obtain ⟨before, after, hadded, -⟩ := htarget
    refine h (l, .link target) ?_ target rfl
    rw [hadded]
    exact List.mem_append_right before List.mem_cons_self

theorem bare_of_isFile {e : Entry} (h : e.isFile) : e.bare = .lockedFile := by
  cases e with
  | file content => rfl
  | lockedFile => rfl
  | _ => cases h

theorem keeps_insert {l : Location} (hl : l ≠ []) {e : Entry} (he : e.isFile)
    (h : ∀ old, t.entry? l = some old → old.isFile) : (t.insert l e).Keeps t := by
  have hstart : (t.insert l e).workingDirectory = t.workingDirectory := by
    unfold insert
    split <;> rfl
  refine ⟨hstart, fun l' => ?_⟩
  rw [entry_insert hl]
  split
  · rename_i hl'
    subst hl'
    cases hold : t.entry? l' with
    | none =>
      refine .inr ⟨rfl, fun target htarget => ?_⟩
      rw [Option.some.inj htarget] at he
      cases he
    | some old =>
      rw [Option.map_some, Option.map_some, bare_of_isFile he, bare_of_isFile (h old hold)]
      exact .inl rfl
  · exact .inl rfl

theorem follow_nil (t : FileTree) (purpose : Purpose) (links : Nat) (place : Location) :
    t.follow purpose links place [] = .ok place := by
  rw [follow]

theorem follow_of_keeps (h : t'.Keeps t) {purpose : Purpose} {links : Nat}
    {place l : Location} {steps : List PathStep}
    (hfollow : t.follow purpose links place steps = .ok l) :
    t'.follow purpose links place steps = .ok l := by
  -- each step that `t` allows leads through an entry that `t'` has as well
  fun_induction t.follow purpose links place steps with
  | case1 =>
    rw [follow]
    exact hfollow
  | _ =>
    rw [follow]
    have hentry := h.entry
    grind [Entry.bare, follow_nil]

theorem locate_of_keeps (h : t'.Keeps t) {purpose : Purpose} {p : Path} {l : Location}
    (hl : t.locate purpose p = .ok l) : t'.locate purpose p = .ok l := by
  unfold locate at hl ⊢
  rw [startOf_congr h.workingDirectory]
  split_ifs at hl ⊢
  exact follow_of_keeps h hl

end

/-! ## writing -/

section
variable {t t' : FileTree} {p : Path} {l : Location} {content : ByteArray}

theorem follow_followed_of_fresh {links : Nat} {place : Location} {steps : List PathStep}
    (h : t.follow .fresh links place steps = .ok l) (hl : t.entry? l ≠ none) :
    t.follow .followed links place steps = .ok l := by
  fun_induction t.follow .fresh links place steps with
  | case1 =>
    rw [follow]
    exact h
  | _ =>
    rw [follow]
    grind

theorem locate_followed_of_fresh (h : t.locate .fresh p = .ok l) (hl : t.entry? l ≠ none) :
    t.locate .followed p = .ok l := by
  unfold locate at h ⊢
  split_ifs at h ⊢
  exact follow_followed_of_fresh h hl

/-- where a path leads to no entry, not even to a link, there is none -/
theorem entry_eq_none_of_fresh (h : t.locate .fresh p = .ok l)
    (hfree : ∀ l, t.locate .asItIs p ≠ .ok l) : t.entry? l = none := by
  by_contra hne
  obtain ⟨e, he⟩ := Option.ne_none_iff_exists'.1 hne
  obtain ⟨last, -, hlast, -⟩ := exists_asItIs_of_followed (locate_followed_of_fresh h hne) he
  exact hfree last hlast

theorem writeFile_eq_ok_iff : t.writeFile p content = .ok t' ↔
    ∃ l, t.locate .fresh p = .ok l ∧
      (∀ old, t.entry? l = some old → ¬ old.isDirectory ∧ old ≠ .lockedFile) ∧
      t' = t.insert l (.file content) := by
  unfold writeFile
  cases hl : t.locate .fresh p with
  | error e => simp [bind, Except.bind]
  | ok l =>
    have hinsert : t.insert l (.file content) = t' ↔ t' = t.insert l (.file content) := eq_comm
    simp only [bind, Except.bind, Except.ok.injEq, exists_eq_left']
    cases he : t.entry? l with
    | none => simp [pure, Except.pure, hinsert]
    | some e =>
      cases e <;> simp [pure, Except.pure, throw, throwThe, MonadExceptOf.throw, hinsert,
        Entry.isDirectory]

/-- `t'` is `t` with a file written at the place that a path leads to -/
structure Writes (t' t : FileTree) (p : Path) (content : ByteArray) (l : Location) : Prop where
  located : t.locate .fresh p = .ok l
  ne_nil : l ≠ []
  /-- what was there before, if anything, was a file -/
  isFile : ∀ old, t.entry? l = some old → old.isFile
  tree : t' = t.insert l (.file content)

theorem eq_nil_of_all_slash {first : PathStep} {rest : List PathStep} {name : RawText}
    (hrest : rest.all (· == .slash)) (hlast : (first :: rest).getLast? = some (.down name)) :
    rest = [] := by
  rcases List.eq_nil_or_concat' rest with rfl | ⟨before, last, rfl⟩
  · rfl
  · rw [← List.cons_append, List.getLast?_concat, Option.some_inj] at hlast
    simp [hlast] at hrest

/-- a last step down that comes to no link leads to a place of that name -/
theorem getLast_of_follow_fresh {links : Nat} {place : Location} {steps : List PathStep}
    {name : RawText} (hsteps : steps.getLast? = some (.down name))
    (h : t.follow .fresh links place steps = .ok l)
    (hlink : ∀ l target, t.follow .asItIs links place steps = .ok l →
      t.entry? l ≠ some (.link target)) :
    l.getLast? = some name ∧ ∀ target, t.entry? l ≠ some (.link target) := by
  fun_induction t.follow .fresh links place steps with
  | case1 => cases hsteps
  | _ =>
    rw [follow] at hlink
    grind [List.getLast?_cons, List.getLast?_append, follow_nil, eq_nil_of_all_slash]

/-- and goes down from the place that the steps before it lead to, with a slash at their end or
without -/
theorem exists_of_follow_fresh {links : Nat} {place : Location} {steps : List PathStep}
    {name : RawText} (h : t.follow .fresh links place (steps ++ [.down name]) = .ok l)
    (hlink : ∀ l target, t.follow .asItIs links place (steps ++ [.down name]) = .ok l →
      t.entry? l ≠ some (.link target)) :
    ∃ above, l = above ++ [name] ∧ t.follow .followed links place steps = .ok above ∧
      t.follow .followed links place (steps ++ [.slash]) = .ok above := by
  fun_induction t.follow .followed links place steps with
  | case1 links place =>
    refine ⟨place, ?_, rfl, by rw [List.nil_append, follow, follow_nil]⟩
    rw [List.nil_append, follow] at h hlink
    grind [follow_nil]
  | _ =>
    rw [List.cons_append, follow] at h hlink ⊢
    grind [List.append_eq_nil_iff]

/-- a path leads to a directory; the empty one stands for the working directory -/
def LeadsTo (t : FileTree) (directory : Path) (above : Location) : Prop :=
  t.locate .followed directory = .ok above ∨ directory.raw.isEmpty ∧ above = t.workingDirectory

theorem LeadsTo.of_keeps {directory : Path} {above : Location} (h : t.LeadsTo directory above)
    (hkeeps : t'.Keeps t) : t'.LeadsTo directory above := by
  rcases h with h | ⟨hempty, h⟩
  · exact .inl (locate_of_keeps hkeeps h)
  · exact .inr ⟨hempty, h.trans hkeeps.workingDirectory.symm⟩

theorem LeadsTo.unique {directory : Path} {a b : Location} (ha : t.LeadsTo directory a)
    (hb : t.LeadsTo directory b) : a = b := by
  rcases ha with ha | ⟨hempty, rfl⟩ <;> rcases hb with hb | ⟨hempty', rfl⟩
  · exact Except.ok.inj (ha.symm.trans hb)
  · exact absurd hempty' (not_isEmpty_of_locate ha)
  · exact absurd hempty (not_isEmpty_of_locate hb)
  · rfl

theorem eq_withoutSlash_or (steps : List PathStep) :
    steps = withoutSlash steps ∨ steps = withoutSlash steps ++ [.slash] := by
  unfold withoutSlash
  split
  · rename_i hlast
    obtain ⟨before, rfl⟩ := List.getLast?_eq_some_iff.1 hlast
    rw [List.dropLast_concat]
    exact .inr rfl
  · exact .inl rfl

section
variable {directory : Path} {name : RawText} (hname : IsName name)
include hname

theorem getLast_steps_join (directory : Path) :
    (directory.join ⟨name⟩).steps.getLast? = some (.down name) := by
  rw [Path.steps_join hname]
  exact List.getLast?_concat

/-- a file that is written below a directory, and not through a link, has its name there -/
theorem exists_of_writeFile_join
    (hlink : ∀ l target, t.locate .asItIs (directory.join ⟨name⟩) = .ok l →
      t.entry? l ≠ some (.link target))
    (h : t.writeFile (directory.join ⟨name⟩) content = .ok t') :
    ∃ l, l.getLast? = some name ∧ t'.Writes t (directory.join ⟨name⟩) content l := by
  obtain ⟨l, hl, hold, rfl⟩ := writeFile_eq_ok_iff.1 h
  have hfollow := hl
  unfold locate at hfollow hlink
  split_ifs at hfollow hlink
  obtain ⟨hlast, hnot⟩ :=
    getLast_of_follow_fresh (getLast_steps_join hname directory) hfollow hlink
  have hne : l ≠ [] := by
    rintro rfl
    cases hlast
  refine ⟨l, hlast, ⟨hl, hne, fun old he => ?_, rfl⟩⟩
  obtain ⟨hdirectory, -⟩ := hold old he
  cases old with
  | file content => rfl
  | lockedFile => rfl
  | link target => exact absurd he (hnot target)
  | _ => exact absurd rfl hdirectory

/-- the place of a file below a directory lies directly in it, if the path ends at no link -/
theorem exists_of_locate_fresh_join (h : t.locate .fresh (directory.join ⟨name⟩) = .ok l)
    (hlink : ∀ l target, t.locate .asItIs (directory.join ⟨name⟩) = .ok l →
      t.entry? l ≠ some (.link target)) :
    ∃ above, l = above ++ [name] ∧ t.LeadsTo directory above := by
  unfold locate at h hlink
  split_ifs at h hlink with hempty hzero hlong
  rw [Path.steps_join hname] at h hlink
  obtain ⟨above, rfl, hfollow, hslash⟩ := exists_of_follow_fresh h hlink
  refine ⟨above, rfl, ?_⟩
  have hstart : t.startOf (directory.join ⟨name⟩) = t.startOf directory := by
    unfold startOf
    rw [Path.isAbsolute_join hname]
  rw [hstart] at hfollow hslash
  by_cases hdirectory : directory.raw.isEmpty
  · obtain ⟨⟨bytes⟩⟩ := directory
    obtain rfl : bytes = [] := RawText.isEmpty_iff.1 hdirectory
    refine .inr ⟨rfl, ?_⟩
    exact (Except.ok.inj ((follow_nil t .followed maxLinks _).symm.trans hfollow)).symm
  · left
    have hzero' : ¬ directory.raw.bytes.contains 0 := by
      have hmem : 0 ∈ (pathBelow directory [name]).raw.bytes ↔
          0 ∈ directory.raw.bytes ∨ ∃ n ∈ [name], 0 ∈ n.bytes :=
        mem_raw_pathBelow (by decide) (List.forall_mem_singleton.2 hname)
      rw [List.contains_iff_mem] at hzero ⊢
      exact fun h => hzero (hmem.2 (.inl h))
    have hlong' : ¬ isTooLong directory := by
      have hle := le_size_join hdirectory hname
      simp only [isTooLong, decide_eq_true_eq] at hlong ⊢
      omega
    unfold locate
    rw [if_neg hdirectory, if_neg hzero', if_neg hlong']
    rcases eq_withoutSlash_or directory.steps with hsteps | hsteps
    · rw [hsteps]
      exact hfollow
    · rw [hsteps]
      exact hslash

end

/-- a name that nothing has in a directory, and that a file can have there -/
structure IsFree (t : FileTree) (directory : Path) (above : Location) (name : RawText) : Prop where
  isName : IsName name
  not_mem_zero : 0 ∉ name.bytes
  shortPath : ¬ isTooLong (directory.join ⟨name⟩)
  shortName : name.size ≤ maxNameBytes
  entry : t.entry? (above ++ [name]) = none

section
variable {directory : Path} {above : Location} {name : RawText}
  (habove : t.locate .followed directory = .ok above) (hentry : t.entry? above = some .directory)
  (hfree : t.IsFree directory above name)
include habove hentry hfree

theorem locate_join_of_isFree {purpose : Purpose} (hpurpose : purpose ≠ .fullPath) :
    t.locate purpose (directory.join ⟨name⟩) =
      if purpose = .fresh then .ok (above ++ [name]) else .error .notFound := by
  have hname : ∀ n ∈ [name], IsName n := List.forall_mem_singleton.2 hfree.isName
  obtain ⟨left, hleft⟩ := exists_locate_pathBelow habove hentry hname (by simp)
  have hzero : ¬ ∃ n ∈ [name], 0 ∈ n.bytes := by
    simpa using hfree.not_mem_zero
  have hlong : ¬ isTooLong (pathBelow directory [name]) := hfree.shortPath
  show t.locate purpose (pathBelow directory [name]) = _
  rw [hleft purpose hpurpose, if_neg hzero, if_neg hlong, List.map_singleton, follow,
    if_neg (Nat.not_lt.2 hfree.shortName), if_neg (by simp [hpurpose]), if_neg (by simp)]
  simp only [hfree.entry]
  simp

theorem writeFile_join_of_isFree (content : ByteArray) :
    t.writeFile (directory.join ⟨name⟩) content =
      .ok (t.adding [(above ++ [name], .file content)]) := by
  refine writeFile_eq_ok_iff.2 ⟨above ++ [name], ?_, ?_, ?_⟩
  · exact locate_join_of_isFree habove hentry hfree (by simp)
  · simp [hfree.entry]
  · exact (insert_of_entry_eq_none (by simp) hfree.entry _).symm

end

namespace Writes

variable (h : t'.Writes t p content l)
include h

theorem keeps : t'.Keeps t := by
  rw [h.tree]
  exact keeps_insert h.ne_nil rfl h.isFile

theorem entry (l' : Location) :
    t'.entry? l' = if l' = l then some (.file content) else t.entry? l' := by
  rw [h.tree]
  exact entry_insert h.ne_nil _ l'

/-- what is written is found again -/
theorem locate : t'.locate .followed p = .ok l := by
  apply locate_followed_of_fresh (locate_of_keeps h.keeps h.located)
  rw [h.entry, if_pos rfl]
  simp

theorem readBytes : t'.readBytes p = .ok content := by
  apply readBytes_of_file h.locate
  rw [h.entry, if_pos rfl]

/-- a new file leads to nothing but itself -/
theorem follow_cases {purpose : Purpose} {links : Nat} {place l' : Location}
    {steps : List PathStep} (hfollow : t'.follow purpose links place steps = .ok l') :
    l' = l ∨ t.follow purpose links place steps = .ok l' := by
  have hentry := h.entry
  have hfile := h.isFile
  fun_induction t'.follow purpose links place steps with
  | case1 =>
    rw [follow]
    exact .inr hfollow
  | _ =>
    rw [follow]
    grind [Entry.isFile]

theorem locate_cases {purpose : Purpose} {q : Path} {l' : Location}
    (hl' : t'.locate purpose q = .ok l') : l' = l ∨ t.locate purpose q = .ok l' := by
  unfold FileTree.locate at hl' ⊢
  rw [startOf_congr h.keeps.workingDirectory] at hl'
  split_ifs at hl' ⊢
  exact h.follow_cases hl'

end Writes

end

/-! ## making directories -/

/-- nothing changes at a place, or a directory is made where there was nothing -/
def StaysAt (t' t : FileTree) (l : Location) : Prop :=
  t'.entry? l = t.entry? l ∨ t.entry? l = none ∧ t'.entry? l = some .directory

/-- `t'` has nothing but more directories -/
def AddsDirectories (t' t : FileTree) : Prop :=
  ∃ added, t' = t.adding added ∧ ∀ x ∈ added, x.2 = .directory

section
variable {t t' t'' : FileTree} {p : Path} {e : Entry}

theorem AddsDirectories.refl (t : FileTree) : t.AddsDirectories t :=
  ⟨[], (adding_nil t).symm, by simp⟩

theorem AddsDirectories.trans (h : t''.AddsDirectories t') (h' : t'.AddsDirectories t) :
    t''.AddsDirectories t := by
  obtain ⟨more, rfl, hmore⟩ := h
  obtain ⟨added, rfl, hadded⟩ := h'
  refine ⟨added ++ more, adding_adding t added more, fun x hx => ?_⟩
  rcases List.mem_append.1 hx with hx | hx
  · exact hadded x hx
  · exact hmore x hx

theorem AddsDirectories.staysAt (h : t'.AddsDirectories t) (l : Location) : t'.StaysAt t l := by
  unfold StaysAt
  obtain ⟨added, rfl, hadded⟩ := h
  rw [entry_adding]
  cases he : t.entry? l with
  | some e => exact .inl rfl
  | none =>
    rw [Option.none_or]
    cases hl : added.lookup l with
    | none => exact .inl rfl
    | some e =>
      obtain ⟨before, after, rfl, -⟩ := List.lookup_eq_some_iff.1 hl
      exact .inr ⟨rfl, congrArg some (hadded (l, e) (by simp))⟩

theorem exists_of_create (h : t.create p e = .ok t') :
    ∃ l, l ≠ [] ∧ t.entry? l = none ∧ t' = t.adding [(l, e)] := by
  unfold create at h
  split_ifs at h
  simp only [bind, Except.bind] at h
  cases habove : t.follow .followed maxLinks (t.startOf p)
      ((withoutSlash p.steps).dropLast ++ [.stay]) with
  | error e => simp [habove] at h
  | ok above =>
    simp only [habove] at h
    split at h
    · rename_i name hlast
      split_ifs at h with hname hthere
      have hne : above ++ [name] ≠ [] := by simp
      have hnone : t.entry? (above ++ [name]) = none := by simpa using hthere
      refine ⟨above ++ [name], hne, hnone, ?_⟩
      rw [← insert_of_entry_eq_none hne hnone]
      exact (Except.ok.inj h).symm
    · cases h

theorem addsDirectories_of_ensureDirectory (h : t.ensureDirectory p = .ok t') :
    t'.AddsDirectories t := by
  unfold ensureDirectory at h
  split at h
  · rename_i made hmade
    obtain rfl := Except.ok.inj h
    obtain ⟨l, -, -, rfl⟩ := exists_of_create hmade
    exact ⟨[(l, .directory)], rfl, by simp⟩
  · split_ifs at h
    obtain rfl := Except.ok.inj h
    exact .refl t

theorem addsDirectories_makeDirectoriesUpTo (depth : Nat) (t : FileTree) (p : Path) :
    (makeDirectoriesUpTo depth t p).1.AddsDirectories t := by
  -- the cases are the ways to end: here, above, or here after the directories above were made
  fun_induction makeDirectoriesUpTo depth t p with
  | case1 => exact .refl _
  | case2 _ _ _ t' hmade => exact addsDirectories_of_ensureDirectory hmade
  | case3 => exact .refl _
  | case4 _ _ _ _ _ _ _ _ t' e habove ih =>
    rw [habove] at ih
    exact ih
  | case5 _ _ _ _ _ _ _ _ t' habove t'' hmade ih =>
    rw [habove] at ih
    exact (addsDirectories_of_ensureDirectory hmade).trans ih
  | case6 _ _ _ _ _ _ _ _ t' habove e hmade ih =>
    rw [habove] at ih
    exact ih
  | case7 => exact .refl _

/-- making directories adds directories and nothing else, whether or not it comes to its end -/
theorem addsDirectories_makeDirectories (t : FileTree) (p : Path) :
    (t.makeDirectories p).1.AddsDirectories t :=
  addsDirectories_makeDirectoriesUpTo p.components.length t p

theorem Writes.staysAt {content : ByteArray} {l l' : Location}
    (h : t''.Writes t' p content l) (hl : l' ≠ l) (hstays : t'.StaysAt t l') :
    t''.StaysAt t l' := by
  unfold StaysAt at hstays ⊢
  rw [h.entry, if_neg hl]
  exact hstays

end

end FileTree

end ContractAudit
