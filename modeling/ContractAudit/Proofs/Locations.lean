import Mathlib
import ContractAudit.FileTree.Walk

/-!
# Where paths lead

A path is followed by what stands at the places on its way: directories, links and files.  What
the files hold, and whether they may be opened, plays no part.

* `Entry.bare`: an entry without its content.
* `FileTree.LooksLike t' t`: the trees have the same bare entries.
* `FileTree.locate_congr`, `FileTree.isDirectory_congr`, `FileTree.pathExists_congr`: trees that look
  alike lead every path to the same place, where they have the same kind of entry.
* `FileTree.toOption_readText`: a text is read where the content of a file is one.
* `FileTree.readText_congr`: what is read depends on nothing but the entry at that place.
* `FileTree.locate_followed_of_asItIs`: a path that does not end at a link leads to one place,
  whatever it is followed for.
* `FileTree.exists_asItIs_of_followed`: a path that leads to an entry has one at its end.
-/

namespace ContractAudit

/-- an entry without its content -/
def Entry.bare : Entry → Entry
  | .file _ | .lockedFile => .lockedFile
  | .directory => .directory
  | .lockedDirectory => .lockedDirectory
  | .link target => .link target

theorem Entry.isDirectory_bare (e : Entry) : e.bare.isDirectory = e.isDirectory := by
  cases e <;> rfl

theorem Entry.eq_directory_or {e : Entry} (h : e.isDirectory) :
    e = .lockedDirectory ∨ e = .directory := by
  cases e with
  | lockedDirectory => exact .inl rfl
  | directory => exact .inr rfl
  | _ => cases h

namespace FileTree

/-- the trees have the same entries at all places, apart from what files hold -/
def LooksLike (t' t : FileTree) : Prop :=
  ∀ l, ( t'.entry? l).map Entry.bare = ( t.entry? l).map Entry.bare

section
variable {t t' : FileTree}

theorem LooksLike.entry_eq_directory (h : t'.LooksLike t) {l : Location}
    (hl : t.entry? l = some .directory) : t'.entry? l = some .directory := by
  have hbare := h l
  rw [hl, Option.map_some, Option.map_eq_some_iff] at hbare
  obtain ⟨e, he, hsame⟩ := hbare
  rw [he]
  cases e with
  | directory => rfl
  | _ => cases hsame

theorem follow_congr (h : t'.LooksLike t) (purpose : Purpose) (links : Nat) (place : Location)
    (steps : List PathStep) :
    t'.follow purpose links place steps = t.follow purpose links place steps := by
  -- one case for each way that a step can go; only the entry at the next place is asked for
  fun_induction t.follow purpose links place steps with
  | case1 => rw [follow]
  | _ =>
    rw [follow]
    grind [LooksLike, Entry.bare]

theorem startOf_congr (h : t'.workingDirectory = t.workingDirectory) (p : Path) :
    t'.startOf p = t.startOf p := by
  rw [startOf, startOf, h]

theorem locate_congr (h : t'.LooksLike t) (hstart : t'.workingDirectory = t.workingDirectory)
    (purpose : Purpose) (p : Path) : t'.locate purpose p = t.locate purpose p := by
  rw [locate, locate, startOf_congr hstart, follow_congr h]

theorem entryAt_congr (h : t'.LooksLike t) (hstart : t'.workingDirectory = t.workingDirectory)
    (p : Path) : (t'.entryAt? p).map Entry.bare = (t.entryAt? p).map Entry.bare := by
  rw [entryAt?, entryAt?, locate_congr h hstart]
  cases t.locate .followed p with
  | ok l => exact h l
  | error e => rfl

theorem isDirectory_congr (h : t'.LooksLike t)
    (hstart : t'.workingDirectory = t.workingDirectory) (p : Path) :
    t'.isDirectory p = t.isDirectory p := by
  have hbare := entryAt_congr h hstart p
  rw [isDirectory, isDirectory]
  cases he' : t'.entryAt? p with
  | none =>
    rw [he', eq_comm, Option.map_none, Option.map_eq_none_iff] at hbare
    rw [hbare]
  | some e' =>
    rw [he', eq_comm, Option.map_some, Option.map_eq_some_iff] at hbare
    obtain ⟨e, he, hsame⟩ := hbare
    rw [he]
    show e'.isDirectory = e.isDirectory
    rw [← Entry.isDirectory_bare e', ← hsame, Entry.isDirectory_bare]

theorem pathExists_congr (h : t'.LooksLike t)
    (hstart : t'.workingDirectory = t.workingDirectory) (p : Path) :
    t'.pathExists p = t.pathExists p := by
  have hsome := congrArg Option.isSome (entryAt_congr h hstart p)
  rwa [Option.isSome_map, Option.isSome_map] at hsome

theorem readBytes_of_file {p : Path} {l : Location} (h : t.locate .followed p = .ok l)
    {content : ByteArray} (hentry : t.entry? l = some (.file content)) :
    t.readBytes p = .ok content := by
  rw [readBytes, h]
  simp only [bind, Except.bind, hentry]
  rfl

theorem toOption_readText (t : FileTree) (p : Path) :
    (t.readText p).toOption = (t.readBytes p).toOption.bind String.fromUTF8? := by
  rw [readText]
  cases t.readBytes p with
  | error e => rfl
  | ok content =>
    show _ = String.fromUTF8? content
    simp only [bind, Except.bind]
    cases String.fromUTF8? content <;> rfl

theorem readText_congr {p q : Path} {l l' : Location} (h : t'.locate .followed p = .ok l')
    (h' : t.locate .followed q = .ok l) (hentry : t'.entry? l' = t.entry? l) :
    t'.readText p = t.readText q := by
  have hbytes : t'.readBytes p = t.readBytes q := by
    rw [readBytes, readBytes, h, h']
    simp only [bind, Except.bind, hentry]
  rw [readText, readText, hbytes]

theorem follow_followed_of_asItIs {links : Nat} {place l : Location} {steps : List PathStep}
    (h : t.follow .asItIs links place steps = .ok l)
    (hl : ∀ target, t.entry? l ≠ some (.link target)) :
    t.follow .followed links place steps = .ok l := by
  fun_induction t.follow .asItIs links place steps with
  | case1 =>
    rw [follow]
    exact h
  | _ =>
    rw [follow]
    grind

/-- only at a link does it matter what the path is followed for -/
theorem locate_followed_of_asItIs {p : Path} {l : Location} (h : t.locate .asItIs p = .ok l)
    (hl : ∀ target, t.entry? l ≠ some (.link target)) : t.locate .followed p = .ok l := by
  rw [locate] at h ⊢
  split at h
  · cases h
  rw [if_neg ‹_›]
  split at h
  · cases h
  rw [if_neg ‹_›]
  split at h
  · cases h
  rw [if_neg ‹_›]
  exact follow_followed_of_asItIs h hl

theorem follow_asItIs_of_followed {links : Nat} {place l : Location} {steps : List PathStep}
    (h : t.follow .followed links place steps = .ok l) :
    t.follow .asItIs links place steps = .ok l ∨
      ∃ link target, t.follow .asItIs links place steps = .ok link ∧
        t.entry? link = some (.link target) := by
  fun_induction t.follow .followed links place steps with
  | case1 =>
    rw [follow]
    exact .inl h
  | _ =>
    rw [follow]
    grind

/-- a path that leads to an entry ends there, or at a link -/
theorem exists_asItIs_of_followed {p : Path} {l : Location} {e : Entry}
    (h : t.locate .followed p = .ok l) (he : t.entry? l = some e) :
    ∃ last e', t.locate .asItIs p = .ok last ∧ t.entry? last = some e' ∧
      (e' = e ∨ ∃ target, e' = .link target) := by
  unfold locate at h ⊢
  split_ifs at h ⊢
  rcases follow_asItIs_of_followed h with hsame | ⟨last, target, hlast, hlink⟩
  · exact ⟨l, e, hsame, he, .inl rfl⟩
  · exact ⟨last, .link target, hlast, hlink, .inr ⟨target, rfl⟩⟩

theorem pathExists_of_entry {root : Path} {base : Location} {e : Entry}
    (hbase : t.locate .followed root = .ok base) (he : t.entry? base = some e) :
    t.pathExists root := by
  unfold pathExists entryAt?
  simp only [hbase, he]
  rfl

theorem pathExists_of_isDirectory {root : Path} (h : t.isDirectory root) : t.pathExists root := by
  unfold isDirectory at h
  unfold pathExists
  cases he : t.entryAt? root with
  | none =>
    rw [he] at h
    cases h
  | some e => rfl

theorem exists_entry_of_pathExists {root : Path} (h : t.pathExists root) :
    ∃ base e, t.locate .followed root = .ok base ∧ t.entry? base = some e := by
  unfold pathExists entryAt? at h
  cases hbase : t.locate .followed root with
  | error e =>
    rw [hbase] at h
    cases h
  | ok base =>
    rw [hbase] at h
    obtain ⟨e, he⟩ := Option.isSome_iff_exists.1 h
    exact ⟨base, e, rfl, he⟩

end

end FileTree

end ContractAudit
