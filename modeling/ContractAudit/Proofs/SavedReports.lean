import ContractAudit.Proofs.FileChanges
import ContractAudit.Proofs.ScanAudit
import ContractAudit.Proofs.StoredReports
import ContractAudit.Report.Files

/-!
# Reports in files

The report of an audit is kept in two files of one directory.  Nothing else is touched on the way.
If it ends too early, the file for readers has not been written, unless the other one is complete.

* `AuditReport.jsonName`, `AuditReport.textName`: the names of the two files.
* `FileTree.TextWriter.IsFaithful`: a way to write texts that tells when it has not written all.
* `AuditReport.HasNoLinks`, `AuditReport.HasFreeNames`: neither name is a link, or is anything.
* `AuditReport.SavingEnds`: the ways in which keeping a report ends.
* `AuditReport.savingEnds_saveBy`: it does end in one of these ways.

The main statement is `saved_report`.
-/

namespace ContractAudit

open Json

/-! ## two names -/

namespace AuditReport

/-- the name of the file for programs -/
def jsonName (r : AuditReport) : RawText := .ofString ("audit_report_" ++ r.auditId ++ ".json")

/-- the name of the file for readers -/
def textName (r : AuditReport) : RawText := .ofString ("audit_report_" ++ r.auditId ++ ".txt")

section
variable {r : AuditReport}

theorem isName_of_auditId {id extension : String} (hid : '/' ∉ id.toList)
    (hextension : '/' ∉ extension.toList) :
    IsName (.ofString ("audit_report_" ++ id ++ extension)) := by
  apply isName_of_length
  · rw [RawText.ofString_append, RawText.ofString_append, RawText.size_append, RawText.size_append]
    exact Nat.le_add_right_of_le (Nat.le_add_right_of_le (by decide))
  · rw [RawText.mem_bytes_ofString_iff (c := '/') rfl (by decide), String.toList_append,
      String.toList_append]
    simp [hid, hextension]

theorem isName_jsonName (hid : '/' ∉ r.auditId.toList) : IsName r.jsonName :=
  isName_of_auditId hid (by decide)

theorem isName_textName (hid : '/' ∉ r.auditId.toList) : IsName r.textName :=
  isName_of_auditId hid (by decide)

theorem jsonFile_eq (r : AuditReport) (directory : Path) :
    r.jsonFile directory = directory.join ⟨r.jsonName⟩ := rfl

theorem textFile_eq (r : AuditReport) (directory : Path) :
    r.textFile directory = directory.join ⟨r.textName⟩ := rfl

theorem jsonName_ne_textName (r : AuditReport) : r.jsonName ≠ r.textName := by
  have hlast (extension : String) (hne : extension.toList ≠ []) :
      ("audit_report_" ++ r.auditId ++ extension).toList.getLast? =
        extension.toList.getLast? := by
    rw [String.toList_append, List.getLast?_append_of_ne_nil _ hne]
  intro h
  have hsame := congrArg (fun s => s.toList.getLast?) (RawText.ofString_inj.1 h)
  rw [hlast _ (by decide), hlast _ (by decide)] at hsame
  exact absurd hsame (by decide)

theorem ne_of_getLast {json text : Location} (hjson : json.getLast? = some r.jsonName)
    (htext : text.getLast? = some r.textName) : json ≠ text := by
  rintro rfl
  exact r.jsonName_ne_textName (Option.some.inj (hjson.symm.trans htext))

end

end AuditReport

/-! ## ways to write -/

namespace FileTree

/-- A way to write texts is faithful if what it writes without an error is the whole text.  After an
error the tree is as it was, or the file holds a beginning of the text. -/
structure TextWriter.IsFaithful (write : TextWriter) : Prop where
  whole {t t' : FileTree} {p : Path} {s : String} :
    write t p s = (t', none) → t.writeText p s = .ok t'
  part {t t' : FileTree} {p : Path} {s : String} {e : IoError} : write t p s = (t', some e) →
    t' = t ∨ ∃ n, t.writeFile p (s.toUTF8.extract 0 n) = .ok t'

theorem putText_of_writeText {t t' : FileTree} {p : Path} {s : String}
    (h : t.writeText p s = .ok t') : putText t p s = (t', none) := by
  unfold putText
  rw [h]

theorem isFaithful_putText : TextWriter.IsFaithful putText := by
  constructor
  · intro t t' p s h
    unfold putText at h
    split at h
    · rename_i hwrite
      rw [hwrite, (Prod.mk.inj h).1]
    · cases h
  · intro t t' p s e h
    unfold putText at h
    split at h
    · cases h
    · exact .inl (Prod.mk.inj h).1.symm

theorem extract_toUTF8 {s : String} {room : Nat} (h : s.utf8ByteSize ≤ room) :
    s.toUTF8.extract 0 room = s.toUTF8 := by
  have hmax : room = max room s.toUTF8.size := (Nat.max_eq_left h).symm
  rw [hmax, ByteArray.extract_zero_max_size]

theorem isFaithful_putTextWithin (room : Nat) : TextWriter.IsFaithful (putTextWithin room) := by
  constructor
  · intro t t' p s h
    unfold putTextWithin at h
    split at h
    · rename_i hwrite
      obtain ⟨rfl, hroom⟩ := Prod.mk.inj h
      split_ifs at hroom with hfits
      rw [extract_toUTF8 hfits] at hwrite
      exact hwrite
    · cases h
  · intro t t' p s e h
    unfold putTextWithin at h
    split at h
    · rename_i hwrite
      rw [(Prod.mk.inj h).1] at hwrite
      exact .inr ⟨room, hwrite⟩
    · exact .inl (Prod.mk.inj h).1.symm

/-- what was written before another file can still be read -/
theorem Writes.readText_of_writes {t first second : FileTree} {p q : Path} {s : String}
    {content : ByteArray} {l l' : Location} (hfirst : first.Writes t p s.toUTF8 l)
    (hsecond : second.Writes first q content l') (hne : l ≠ l') :
    second.readText p = .ok s := by
  have hlocate := locate_of_keeps hsecond.keeps hfirst.locate
  rw [readText_congr hlocate hfirst.locate (by rw [hsecond.entry, if_neg hne])]
  exact readText_of_readBytes_toUTF8 hfirst.readBytes

end FileTree

/-! ## one file after the other -/

namespace AuditReport

section
variable {t t' : FileTree} {r : AuditReport} {directory : Path} {write : FileTree.TextWriter}

/-- neither of the two files is a link -/
def HasNoLinks (r : AuditReport) (t : FileTree) (directory : Path) : Prop :=
  ∀ file ∈ [r.jsonFile directory, r.textFile directory], ∀ l target,
    t.locate .asItIs file = .ok l → t.entry? l ≠ some (.link target)

/-- nothing has either of the two names, not even a link -/
def HasFreeNames (r : AuditReport) (t : FileTree) (directory : Path) : Prop :=
  ∀ file ∈ [r.jsonFile directory, r.textFile directory], ∀ l, t.locate .asItIs file ≠ .ok l

theorem HasFreeNames.hasNoLinks (h : r.HasFreeNames t directory) : r.HasNoLinks t directory :=
  fun file hfile l _ hl => absurd hl (h file hfile l)

/-- a file that is written is no link, and leads to nothing but itself -/
theorem HasNoLinks.of_writes {p : Path} {content : ByteArray} {l : Location}
    (h : r.HasNoLinks t directory) (hwrites : t'.Writes t p content l) :
    r.HasNoLinks t' directory := by
  intro file hfile l' target hl
  rw [hwrites.entry]
  split_ifs with hsame
  · simp
  · exact h file hfile l' target ((hwrites.locate_cases hl).resolve_left hsame)

section
variable (hwrite : write.IsFaithful)
include hwrite

/-- writing one of the two files changes nothing, or writes a part of it, or the whole of it -/
theorem exists_writes_of_write {name : RawText} (hname : IsName name) (s : String)
    (hlink : ∀ l target, t.locate .asItIs (directory.join ⟨name⟩) = .ok l →
      t.entry? l ≠ some (.link target)) :
    (∃ e, write t (directory.join ⟨name⟩) s = (t, some e)) ∨
    ∃ t' l, l.getLast? = some name ∧
      ((∃ n e, t'.Writes t (directory.join ⟨name⟩) (s.toUTF8.extract 0 n) l ∧
        write t (directory.join ⟨name⟩) s = (t', some e)) ∨
      t'.Writes t (directory.join ⟨name⟩) s.toUTF8 l ∧
        write t (directory.join ⟨name⟩) s = (t', none)) := by
  cases hwritten : write t (directory.join ⟨name⟩) s with
  | mk t' failed =>
    cases failed with
    | none =>
      obtain ⟨l, hlast, hwrites⟩ :=
        FileTree.exists_of_writeFile_join hname hlink (hwrite.whole hwritten)
      exact .inr ⟨t', l, hlast, .inr ⟨hwrites, rfl⟩⟩
    | some e =>
      rcases hwrite.part hwritten with rfl | ⟨n, hpart⟩
      · exact .inl ⟨e, rfl⟩
      · obtain ⟨l, hlast, hwrites⟩ := FileTree.exists_of_writeFile_join hname hlink hpart
        exact .inr ⟨t', l, hlast, .inl ⟨n, e, hwrites, rfl⟩⟩

end

/-- How keeping a report ends in a tree in which the directory has been made.  Each file that was
written has its place, its name and the bytes that are in it. -/
inductive SavingEnds (r : AuditReport) (made : FileTree) (directory : Path) :
    FileTree × Except AuditError Path → Prop
  /-- neither file was opened -/
  | before {e : AuditError} : SavingEnds r made directory (made, .error e)
  /-- the first file holds a part of its text -/
  | inFirst {first : FileTree} {json : Location} {n : Nat} {e : AuditError} :
      json.getLast? = some r.jsonName →
      first.Writes made (r.jsonFile directory) (r.write.toUTF8.extract 0 n) json →
      SavingEnds r made directory (first, .error e)
  /-- the first file holds its text, and the second one was not opened -/
  | between {first : FileTree} {json : Location} {e : AuditError} :
      json.getLast? = some r.jsonName →
      first.Writes made (r.jsonFile directory) r.write.toUTF8 json →
      SavingEnds r made directory (first, .error e)
  /-- the first file holds its text, and the second one a part of its own -/
  | inSecond {first second : FileTree} {json text : Location} {n : Nat} {e : AuditError} :
      json.getLast? = some r.jsonName → text.getLast? = some r.textName →
      first.Writes made (r.jsonFile directory) r.write.toUTF8 json →
      second.Writes first (r.textFile directory) ((Plain.audit r).toUTF8.extract 0 n) text →
      SavingEnds r made directory (second, .error e)
  /-- both files hold their texts -/
  | after {first second : FileTree} {json text : Location} :
      json.getLast? = some r.jsonName → text.getLast? = some r.textName →
      first.Writes made (r.jsonFile directory) r.write.toUTF8 json →
      second.Writes first (r.textFile directory) (Plain.audit r).toUTF8 text →
      SavingEnds r made directory (second, .ok (r.jsonFile directory))

section
variable (hwrite : write.IsFaithful) (hid : '/' ∉ r.auditId.toList)
  (hlink : r.HasNoLinks (t.makeDirectories directory).1 directory)
include hwrite hid hlink

theorem savingEnds_saveBy :
    r.SavingEnds (t.makeDirectories directory).1 directory (r.saveBy write t directory) := by
  unfold saveBy
  cases hmade : t.makeDirectories directory with
  | mk made failed =>
    rw [hmade] at hlink
    cases failed with
    | some e => exact .before
    | none =>
      simp only
      rcases exists_writes_of_write hwrite (isName_jsonName hid) r.write
          (hlink (r.jsonFile directory) (by simp)) with
        ⟨e, hjson⟩ | ⟨first, json, hlast, ⟨n, e, hfirst, hjson⟩ | ⟨hfirst, hjson⟩⟩
      · rw [← jsonFile_eq] at hjson
        rw [hjson]
        exact .before
      · rw [← jsonFile_eq] at hjson
        rw [hjson]
        exact .inFirst hlast hfirst
      · rw [← jsonFile_eq] at hjson
        rw [hjson]
        simp only
        rcases exists_writes_of_write hwrite (isName_textName hid) (Plain.audit r)
            (hlink.of_writes hfirst (r.textFile directory) (by simp)) with
          ⟨e, htext⟩ | ⟨second, text, hlast', ⟨n, e, hsecond, htext⟩ | ⟨hsecond, htext⟩⟩
        · rw [← textFile_eq] at htext
          rw [htext]
          exact .between hlast hfirst
        · rw [← textFile_eq] at htext
          rw [htext]
          exact .inSecond hlast hlast' hfirst hsecond
        · rw [← textFile_eq] at htext
          rw [htext]
          exact .after hlast hlast' hfirst hsecond

/-- when keeping a report succeeds, both files were written, at different places -/
theorem exists_writes_of_saveBy {p : Path} (hp : (r.saveBy write t directory).2 = .ok p) :
    ∃ first second json text, json.getLast? = some r.jsonName ∧ text.getLast? = some r.textName ∧
      json ≠ text ∧
      first.Writes (t.makeDirectories directory).1 (r.jsonFile directory) r.write.toUTF8 json ∧
      second.Writes first (r.textFile directory) (Plain.audit r).toUTF8 text ∧
      r.saveBy write t directory = (second, .ok (r.jsonFile directory)) := by
  have hends := savingEnds_saveBy hwrite hid hlink
  generalize r.saveBy write t directory = saved at hends hp
  cases hends with
  | after hjson htext hfirst hsecond =>
    exact ⟨_, _, _, _, hjson, htext, ne_of_getLast hjson htext, hfirst, hsecond, rfl⟩
  | _ => cases hp

/-- when keeping a report succeeds, both files can be read -/
theorem read_of_saveBy {p : Path} (hp : (r.saveBy write t directory).2 = .ok p) :
    (r.saveBy write t directory).1.readText (r.jsonFile directory) = .ok r.write ∧
      (r.saveBy write t directory).1.readBytes (r.textFile directory) =
        .ok (Plain.audit r).toUTF8 := by
  obtain ⟨first, second, json, text, -, -, hne, hfirst, hsecond, hsave⟩ :=
    exists_writes_of_saveBy hwrite hid hlink hp
  rw [hsave]
  exact ⟨hfirst.readText_of_writes hsecond hne, hsecond.readBytes⟩

end

/-- when keeping a report succeeds, both files lie directly in the directory -/
theorem exists_places_of_save (hid : '/' ∉ r.auditId.toList)
    (hlink : r.HasNoLinks (t.makeDirectories directory).1 directory) {p : Path}
    (hp : (r.save t directory).2 = .ok p) :
    ∃ above, (r.save t directory).1.LeadsTo directory above ∧
      (r.save t directory).1.locate .followed (r.jsonFile directory) =
        .ok (above ++ [r.jsonName]) ∧
      (r.save t directory).1.locate .followed (r.textFile directory) =
        .ok (above ++ [r.textName]) := by
  obtain ⟨first, second, json, text, -, -, -, hfirst, hsecond, hsave⟩ :=
    exists_writes_of_saveBy FileTree.isFaithful_putText hid hlink hp
  obtain ⟨above, rfl, habove⟩ := FileTree.exists_of_locate_fresh_join (isName_jsonName hid)
    hfirst.located (hlink (r.jsonFile directory) (by simp))
  obtain ⟨above', rfl, habove'⟩ := FileTree.exists_of_locate_fresh_join (isName_textName hid)
    hsecond.located (hlink.of_writes hfirst (r.textFile directory) (by simp))
  obtain rfl := (habove.of_keeps hfirst.keeps).unique habove'
  unfold save
  rw [hsave]
  exact ⟨above, habove'.of_keeps hsecond.keeps,
    FileTree.locate_of_keeps hsecond.keeps hfirst.locate, hsecond.locate⟩

section
variable {made : FileTree} {above : Location}
  (habove : made.locate .followed directory = .ok above)
  (hentry : made.entry? above = some .directory)
  (hjson : made.IsFree directory above r.jsonName) (htext : made.IsFree directory above r.textName)
include habove hentry hjson htext

theorem hasFreeNames_of_isFree : r.HasFreeNames made directory := by
  have hnone {name : RawText} (hfree : made.IsFree directory above name) :
      ∀ l, made.locate .asItIs (directory.join ⟨name⟩) ≠ .ok l := by
    intro l hl
    rw [FileTree.locate_join_of_isFree habove hentry hfree (by simp)] at hl
    cases hl
  exact List.forall_mem_cons.2 ⟨hnone hjson, List.forall_mem_singleton.2 (hnone htext)⟩

/-- a report is kept in a directory that has both names free -/
theorem save_of_isFree (hmade : t.makeDirectories directory = (made, none)) :
    r.save t directory =
      (made.adding [(above ++ [r.jsonName], .file r.write.toUTF8),
        (above ++ [r.textName], .file (Plain.audit r).toUTF8)], .ok (r.jsonFile directory)) := by
  let first := made.adding [(above ++ [r.jsonName], .file r.write.toUTF8)]
  have hwritten : FileTree.putText made (r.jsonFile directory) r.write = (first, none) :=
    FileTree.putText_of_writeText (FileTree.writeFile_join_of_isFree habove hentry hjson _)
  have hkeeps : first.Keeps made := FileTree.keeps_adding (by simp)
  have hentry' : first.entry? above = some .directory := FileTree.entry_adding_of_some hentry
  have htext' : first.IsFree directory above r.textName := by
    refine ⟨htext.isName, htext.not_mem_zero, htext.shortPath, htext.shortName, ?_⟩
    have hne : ¬ r.textName = r.jsonName := fun h => r.jsonName_ne_textName h.symm
    rw [FileTree.entry_adding, htext.entry]
    simp [hne]
  have hwritten' : FileTree.putText first (r.textFile directory) (Plain.audit r) =
      (first.adding [(above ++ [r.textName], .file (Plain.audit r).toUTF8)], none) :=
    FileTree.putText_of_writeText (FileTree.writeFile_join_of_isFree
      (FileTree.locate_of_keeps hkeeps habove) hentry' htext' _)
  unfold save saveBy
  rw [hmade]
  simp only [hwritten, hwritten']
  rw [FileTree.adding_adding]
  rfl

omit htext in
/-- where there is too little room, keeping a report ends with a part of the first file -/
theorem saveBy_of_little_room (hmade : t.makeDirectories directory = (made, none)) {room : Nat}
    (hroom : room < r.write.utf8ByteSize) : r.saveBy (FileTree.putTextWithin room) t directory =
      (made.adding [(above ++ [r.jsonName], .file (r.write.toUTF8.extract 0 room))],
        .error (.io .noSpace)) := by
  have hwritten := FileTree.writeFile_join_of_isFree habove hentry hjson
    (r.write.toUTF8.extract 0 room)
  rw [← jsonFile_eq] at hwritten
  unfold saveBy FileTree.putTextWithin
  rw [hmade]
  simp only [hwritten, if_neg (Nat.not_le.2 hroom)]

end

end

end AuditReport

/-! ## both files -/

/-- both names are free in a directory that has just been made -/
theorem isFree_in_new_directory {name : RawText} (h : name ∈ [leapSecondReport.jsonName,
    leapSecondReport.textName]) :
    FileTree.IsFree ⟨[(["d"], .directory)], []⟩ ⟨"d"⟩ ["d"] name := by
  simp only [List.mem_cons, List.not_mem_nil, or_false] at h
  rcases h with rfl | rfl
  · exact ⟨by decide, by decide, by decide +kernel, by decide, rfl⟩
  · exact ⟨by decide, by decide, by decide +kernel, by decide, rfl⟩

/-- a directory that has to be made has no links in it, and a report is kept there -/
theorem save_in_new_directory {r : AuditReport} (hid : r.auditId = leapSecondReport.auditId) :
    let t : FileTree := ⟨[], []⟩
    let directory : Path := ⟨"d"⟩
    r.HasNoLinks (t.makeDirectories directory).1 directory ∧
      (r.save t directory).2 = .ok (r.jsonFile directory) := by
  intro t directory
  let made : FileTree := ⟨[(["d"], .directory)], []⟩
  have hmade : t.makeDirectories directory = (made, none) := by cbv
  have habove : made.locate .followed directory = .ok ["d"] := by cbv
  have hjson : made.IsFree directory ["d"] r.jsonName := by
    unfold AuditReport.jsonName
    rw [hid]
    exact isFree_in_new_directory List.mem_cons_self
  have htext : made.IsFree directory ["d"] r.textName := by
    unfold AuditReport.textName
    rw [hid]
    exact isFree_in_new_directory (List.mem_cons_of_mem _ List.mem_cons_self)
  rw [AuditReport.save_of_isFree habove rfl hjson htext hmade, hmade]
  exact ⟨(AuditReport.hasFreeNames_of_isFree habove rfl hjson htext).hasNoLinks, rfl⟩

/-- **A report that is kept can be read again, and nothing else is touched.**  Texts may be written
in any way that tells when it has not written all.  When keeping a report succeeds, the answer is
the file for programs, which holds the whole text of the report and is read back as the report
exactly if the report can be kept and its floating-point numbers are read back from their decimals;
the other file has the same report for readers.  When it fails, then before or in the first file, or
in the second one with the whole text in the first.  All else is as before, except for directories
that were made. -/
theorem saved_report {write : FileTree.TextWriter} (hwrite : write.IsFaithful) {t : FileTree}
    {r : AuditReport} {directory : Path} (hid : '/' ∉ r.auditId.toList)
    (hlink : r.HasNoLinks (t.makeDirectories directory).1 directory) :
    let t' := (r.saveBy write t directory).1
    (∀ p, (r.saveBy write t directory).2 = .ok p → p = r.jsonFile directory ∧
      t'.readText p = .ok r.write ∧
      (AuditReport.read? r.write = some r ↔ r.IsStorable ∧ ∀ x ∈ r.floats, ReadsBack x) ∧
      t'.readBytes (r.textFile directory) = .ok (Plain.audit r).toUTF8 ∧
      ∃ json text, t'.locate .followed (r.jsonFile directory) = .ok json ∧
        t'.locate .followed (r.textFile directory) = .ok text ∧
        json.getLast? = some r.jsonName ∧ text.getLast? = some r.textName ∧
        ∀ l, l ≠ json → l ≠ text → t'.StaysAt t l) ∧
    (∀ e, (r.saveBy write t directory).2 = .error e →
      (∀ l, t'.StaysAt t l) ∨
      (∃ json n, t'.locate .followed (r.jsonFile directory) = .ok json ∧
        json.getLast? = some r.jsonName ∧
        t'.readBytes (r.jsonFile directory) = .ok (r.write.toUTF8.extract 0 n) ∧
        ∀ l, l ≠ json → t'.StaysAt t l) ∨
      t'.readText (r.jsonFile directory) = .ok r.write ∧
        ∃ json text n, t'.locate .followed (r.jsonFile directory) = .ok json ∧
          t'.locate .followed (r.textFile directory) = .ok text ∧
          json.getLast? = some r.jsonName ∧ text.getLast? = some r.textName ∧
          t'.readBytes (r.textFile directory) = .ok ((Plain.audit r).toUTF8.extract 0 n) ∧
          ∀ l, l ≠ json → l ≠ text → t'.StaysAt t l) := by
  have hmade := FileTree.addsDirectories_makeDirectories t directory
  have hends := AuditReport.savingEnds_saveBy hwrite hid hlink
  generalize r.saveBy write t directory = saved at hends
  cases hends with
  | before => exact ⟨fun p hp => (nomatch hp), fun e he => .inl hmade.staysAt⟩
  | inFirst hjson hfirst =>
    refine ⟨fun p hp => (nomatch hp), fun e he => .inr (.inl ⟨_, _, hfirst.locate, hjson,
      hfirst.readBytes, fun l hl => hfirst.staysAt hl (hmade.staysAt l)⟩)⟩
  | between hjson hfirst =>
    have hbytes := hfirst.readBytes
    rw [← FileTree.extract_toUTF8 (Nat.le_refl _)] at hbytes
    exact ⟨fun p hp => (nomatch hp), fun e he => .inr (.inl ⟨_, _, hfirst.locate, hjson, hbytes,
      fun l hl => hfirst.staysAt hl (hmade.staysAt l)⟩)⟩
  | inSecond hjson htext hfirst hsecond =>
    have hne := AuditReport.ne_of_getLast hjson htext
    refine ⟨fun p hp => (nomatch hp), fun e he => .inr (.inr
      ⟨hfirst.readText_of_writes hsecond hne, _, _, _, ?_, hsecond.locate, hjson, htext,
        hsecond.readBytes, fun l hl hl' => ?_⟩)⟩
    · exact FileTree.locate_of_keeps hsecond.keeps hfirst.locate
    · exact hsecond.staysAt hl' (hfirst.staysAt hl (hmade.staysAt l))
  | after hjson htext hfirst hsecond =>
    have hne := AuditReport.ne_of_getLast hjson htext
    refine ⟨fun p hp => ?_, fun e he => (nomatch he)⟩
    obtain rfl := Except.ok.inj hp
    refine ⟨rfl, hfirst.readText_of_writes hsecond hne, r.read?_write_iff, hsecond.readBytes, _, _,
      ?_, hsecond.locate, hjson, htext, fun l hl hl' => ?_⟩
    · exact FileTree.locate_of_keeps hsecond.keeps hfirst.locate
    · exact hsecond.staysAt hl' (hfirst.staysAt hl (hmade.staysAt l))

/-- An id with quotes and a blank, in a directory that has to be made.  Where there is room for ten
bytes, one file is left with them. -/
theorem saved_report_in_new_directory :
    let t : FileTree := ⟨[], []⟩
    let directory : Path := ⟨"d"⟩
    let saved := leapSecondReport.save t directory
    '/' ∉ leapSecondReport.auditId.toList ∧
    leapSecondReport.HasNoLinks (t.makeDirectories directory).1 directory ∧
    saved.2 = .ok ⟨"d/audit_report_audit \"1\".json"⟩ ∧
    (∃ content, saved.1.readText ⟨"d/audit_report_audit \"1\".json"⟩ = .ok content ∧
      AuditReport.read? content = some leapSecondReport) ∧
    leapSecondReport.saveBy (FileTree.putTextWithin 10) t directory =
      (⟨[(["d"], .directory), (["d", "audit_report_audit \"1\".json"],
        .file (leapSecondReport.write.toUTF8.extract 0 10))], []⟩, .error (.io .noSpace)) := by
  intro t directory saved
  obtain ⟨hlink, hok⟩ := save_in_new_directory (r := leapSecondReport) rfl
  have hid : '/' ∉ leapSecondReport.auditId.toList := by decide
  have hpath : leapSecondReport.jsonFile directory = ⟨"d/audit_report_audit \"1\".json"⟩ := by
    decide
  rw [← hpath]
  obtain ⟨-, hread, hback, -⟩ := (saved_report FileTree.isFaithful_putText hid hlink).1 _ hok
  refine ⟨hid, hlink, hok, ⟨_, hread, hback.2 ⟨isStorable_leapSecondReport, ?_⟩⟩, ?_⟩
  · decide +kernel
  · have hmade : t.makeDirectories directory = (⟨[(["d"], .directory)], []⟩, none) := by cbv
    exact AuditReport.saveBy_of_little_room (by cbv) rfl
      (isFree_in_new_directory List.mem_cons_self) hmade (by decide +kernel)

/-- a report with a number that another one is read for -/
def unevenReport : AuditReport :=
  { leapSecondReport with metrics := some ⟨1, 98.85000000000001, 100, 100, 100, 0⟩ }

/-- what is read back is another report, and the file for readers does not show that one -/
theorem saved_report_reads_as_another :
    let t : FileTree := ⟨[], []⟩
    let directory : Path := ⟨"d"⟩
    let saved := unevenReport.save t directory
    (∀ x ∈ unevenReport.floats, x.isFinite) ∧ '/' ∉ unevenReport.auditId.toList ∧
    unevenReport.HasNoLinks (t.makeDirectories directory).1 directory ∧
    saved.2 = .ok (unevenReport.jsonFile directory) ∧
    ∃ content back, saved.1.readText (unevenReport.jsonFile directory) = .ok content ∧
      AuditReport.read? content = some back ∧ back ≠ unevenReport ∧
      saved.1.readBytes (unevenReport.textFile directory) ≠ .ok (Plain.audit back).toUTF8 := by
  intro t directory saved
  obtain ⟨hlink, hok⟩ := save_in_new_directory (r := unevenReport) rfl
  have hid : '/' ∉ unevenReport.auditId.toList := by decide
  obtain ⟨hread, hread'⟩ : saved.1.readText (unevenReport.jsonFile directory) = _ ∧
      saved.1.readBytes (unevenReport.textFile directory) = _ :=
    AuditReport.read_of_saveBy FileTree.isFaithful_putText hid hlink hok
  let back : AuditReport :=
    { leapSecondReport with metrics := some ⟨1, 98.85, 100, 100, 100, 0⟩ }
  have hback : AuditReport.read? unevenReport.write = some back := by
    rw [AuditReport.read?, AuditReport.write, parse_pretty unevenReport.isPlain_toJson]
    decide +kernel
  refine ⟨by decide +kernel, hid, hlink, hok, _, back, hread, hback, by decide +kernel, ?_⟩
  rw [hread']
  intro hsame
  have htext : Plain.audit unevenReport = Plain.audit back :=
    String.toByteArray_inj.1 (Except.ok.inj hsame)
  exact absurd htext (by decide +kernel)

end ContractAudit
