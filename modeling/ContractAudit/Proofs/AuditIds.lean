import ContractAudit.Proofs.SavedReports
import ContractAudit.Proofs.SmallForms

/-!
# Ids of audits

An id has a date, in whatever year, and hexadecimal digits.  The files that are named for one are
documents neither about a project nor about its interface or its security.

* `idCharacters`: the characters of ids.
* `AuditReport.lowercase_textName`: the name of the text file in lower case.
* `AuditReport.ofName_jsonName`, `AuditReport.ofName_textName`: what the two files are about.
-/

namespace ContractAudit

open Text

/-! ## characters -/

/-- the characters of ids: digits of both kinds, the signs of years, and what stands between -/
def idCharacters : List Char := "0123456789abcdef+-_AUDIT".toList

theorem mem_idCharacters_of_isDigit {c : Char} (h : isDigit c) : c ∈ idCharacters := by
  unfold isDigit at h
  simp only [Bool.and_eq_true, decide_eq_true_eq, Char.le_def, UInt32.le_iff_toNat_le] at h
  obtain ⟨hlow, hhigh⟩ := h
  have hlow : 48 ≤ c.toNat := hlow
  have hhigh : c.toNat ≤ 57 := hhigh
  rw [← Char.ofNat_toNat c]
  interval_cases c.toNat <;> decide

theorem mem_idCharacters_of_mem_padded {width n : Nat} {c : Char}
    (h : c ∈ (Instant.padded width n).toList) : c ∈ idCharacters :=
  mem_idCharacters_of_isDigit (Instant.allDigits_padded width n c h)

theorem mem_idCharacters_of_mem_yearText {y : Int} {c : Char}
    (h : c ∈ (Instant.yearText y).toList) : c ∈ idCharacters := by
  unfold Instant.yearText at h
  split_ifs at h with hshort hnegative
  · exact mem_idCharacters_of_mem_padded h
  · rw [String.toList_append, List.mem_append] at h
    rcases h with h | h
    · obtain rfl : c = '-' := by simpa using h
      decide
    · exact mem_idCharacters_of_mem_padded h
  · rw [String.toList_append, List.mem_append] at h
    rcases h with h | h
    · obtain rfl : c = '+' := by simpa using h
      decide
    · exact mem_idCharacters_of_mem_padded h

theorem mem_idCharacters_of_mem_stamp {start : Instant} {c : Char} (h : c ∈ start.stamp.toList) :
    c ∈ idCharacters := by
  unfold Instant.stamp at h
  simp only [String.toList_append, List.mem_append] at h
  rcases h with ((((((h | h) | h) | h) | h) | h) | h)
  · exact mem_idCharacters_of_mem_yearText h
  · exact mem_idCharacters_of_mem_padded h
  · exact mem_idCharacters_of_mem_padded h
  · obtain rfl : c = '_' := by simpa using h
    decide
  · exact mem_idCharacters_of_mem_padded h
  · exact mem_idCharacters_of_mem_padded h
  · exact mem_idCharacters_of_mem_padded h

theorem mem_hexText {bytes : List UInt8} {c : Char} (h : c ∈ (hexText bytes).toList) :
    c ∈ "0123456789abcdef".toList := by
  have hdigit : ∀ n < 16, hexDigit n ∈ "0123456789abcdef".toList := by decide
  rw [hexText, String.toList_ofList, List.mem_flatMap] at h
  obtain ⟨b, -, hc⟩ := h
  have hb : b.toNat < 256 := b.toNat_lt
  rw [List.mem_pair] at hc
  rcases hc with rfl | rfl
  · exact hdigit _ (by omega)
  · exact hdigit _ (by omega)

theorem mem_idCharacters_of_mem_hexText {bytes : List UInt8} {c : Char}
    (h : c ∈ (hexText bytes).toList) : c ∈ idCharacters := by
  have hall : "0123456789abcdef".toList.all (idCharacters.contains ·) := by decide
  exact List.contains_iff_mem.1 (List.all_eq_true.1 hall c (mem_hexText h))

section
variable {start : Instant} {project : Path} {c : Char}

theorem mem_idCharacters (h : c ∈ (auditId start project).toList) : c ∈ idCharacters := by
  unfold auditId at h
  simp only [String.toList_append, List.mem_append] at h
  rcases h with ((h | h) | h) | h
  · have hprefix : "AUDIT_".toList.all (idCharacters.contains ·) := by decide
    exact List.contains_iff_mem.1 (List.all_eq_true.1 hprefix c h)
  · exact mem_idCharacters_of_mem_stamp h
  · obtain rfl : c = '_' := by simpa using h
    decide
  · exact mem_idCharacters_of_mem_hexText h

theorem not_mem_auditId (hc : c ∉ idCharacters) : c ∉ (auditId start project).toList :=
  fun h => hc (mem_idCharacters h)

theorem utf8ByteSize_hexText (bytes : List UInt8) :
    (hexText bytes).utf8ByteSize = 2 * bytes.length := by
  have hone : ∀ n < 16, (hexDigit n).utf8Size = 1 := by
    intro n hn
    interval_cases n <;> decide
  unfold hexText
  rw [String.utf8ByteSize_ofList]
  induction bytes with
  | nil => rfl
  | cons b bytes ih =>
    have hb : b.toNat < 256 := b.toNat_lt
    rw [List.flatMap_cons, String.utf8Len_append, ih, List.length_cons, String.utf8Len_cons,
      String.utf8Len_cons, String.utf8Len_nil, hone _ (by omega), hone _ (by omega)]
    omega

theorem utf8ByteSize_auditId_le (start : Instant) (project : Path) :
    (auditId start project).utf8ByteSize ≤ start.stamp.utf8ByteSize + 13 := by
  have hlength := List.length_take_le 3 (auditHash start project)
  have hprefix : "AUDIT_".utf8ByteSize = 6 := by decide
  have hmark : "_".utf8ByteSize = 1 := by decide
  unfold auditId
  rw [String.utf8ByteSize_append, String.utf8ByteSize_append, String.utf8ByteSize_append,
    utf8ByteSize_hexText]
  omega

end

/-! ## characters that are not there -/

namespace Text

theorem not_hasFactor_of_not_mem {c : Char} {p s : List Char} (hp : c ∈ p) (hs : c ∉ s) :
    hasFactor p s = false := by
  rw [Bool.eq_false_iff]
  intro h
  exact hs ((hasFactor_iff.1 h).subset hp)

end Text

/-! ## the files of a report -/

theorem Path.size_join_le (p q : Path) : (p.join q).raw.size ≤ p.raw.size + q.raw.size + 1 := by
  have hslash : (RawText.ofString "/").size = 1 := rfl
  unfold join
  split_ifs
  · omega
  · rw [RawText.size_append]
    omega
  · rw [RawText.size_append, RawText.size_append]
    omega

theorem extension?_json (name : RawText) (hname : name ≠ "") :
    extension? (name ++ ".json") = some ("json" : RawText) :=
  (extension?_eq_some_iff_of_ne (by decide) (by decide)).2
    ⟨name, hname, congrArg (name ++ ·) (by decide)⟩

namespace AuditReport

theorem ofName_jsonName (r : AuditReport) : DocumentationPresence.ofName r.jsonName = .none := by
  have hne : RawText.ofString ("audit_report_" ++ r.auditId) ≠ "" := by
    rw [ne_eq, RawText.ofString_inj]
    intro h
    have hnil := congrArg String.toList h
    rw [String.toList_append] at hnil
    simp at hnil
  unfold DocumentationPresence.ofName
  apply if_neg
  unfold isDocumentName jsonName
  rw [RawText.ofString_append, extension?_json _ hne]
  decide

section
variable {r : AuditReport} {start : Instant} {project : Path}
  (hid : r.auditId = ContractAudit.auditId start project)
include hid

theorem slash_not_mem_auditId : '/' ∉ r.auditId.toList := by
  rw [hid]
  exact not_mem_auditId (by decide)

/-- a name for an id is free where nothing has it, unless the stamp or the directory is very long -/
theorem isFree_of_auditId {t : FileTree} {directory : Path} {above : Location} {extension : String}
    (hslash : '/' ∉ extension.toList) (hzero : '\x00' ∉ extension.toList)
    (hshort : extension.utf8ByteSize ≤ 5)
    (hstamp : start.stamp.utf8ByteSize ≤ 224) (hdirectory : directory.raw.size ≤ 3839)
    (hentry : t.entry? (above ++ [.ofString ("audit_report_" ++ r.auditId ++ extension)]) = none) :
    t.IsFree directory above (.ofString ("audit_report_" ++ r.auditId ++ extension)) := by
  have hsize : (RawText.ofString ("audit_report_" ++ r.auditId ++ extension)).size ≤ 255 := by
    have hle := utf8ByteSize_auditId_le start project
    have hprefix : "audit_report_".utf8ByteSize = 13 := by decide
    rw [RawText.size_ofString, String.utf8ByteSize_append, String.utf8ByteSize_append, hid]
    omega
  refine ⟨isName_of_auditId (slash_not_mem_auditId hid) hslash, ?_, ?_, hsize, hentry⟩
  · have hzero' : '\x00' ∉ r.auditId.toList := by
      rw [hid]
      exact not_mem_auditId (by decide)
    rw [RawText.mem_bytes_ofString_iff (c := '\x00') rfl (by decide), String.toList_append,
      String.toList_append]
    simp [hzero, hzero']
  · have hjoin : _ ≤ directory.raw.size +
        (RawText.ofString ("audit_report_" ++ r.auditId ++ extension)).size + 1 :=
      directory.size_join_le ⟨.ofString ("audit_report_" ++ r.auditId ++ extension)⟩
    unfold FileTree.isTooLong FileTree.maxPathBytes
    simp only [decide_eq_true_eq]
    omega

/-- a report is kept in a directory that has nothing of its names -/
theorem save_of_auditId {t made : FileTree} {directory : Path} {above : Location}
    (hmade : t.makeDirectories directory = (made, none))
    (habove : made.locate .followed directory = .ok above)
    (hentry : made.entry? above = some .directory)
    (hjson : made.entry? (above ++ [r.jsonName]) = none)
    (htext : made.entry? (above ++ [r.textName]) = none)
    (hstamp : start.stamp.utf8ByteSize ≤ 224) (hdirectory : directory.raw.size ≤ 3839) :
    r.HasFreeNames (t.makeDirectories directory).1 directory ∧ r.save t directory =
      (made.adding [(above ++ [r.jsonName], .file r.write.toUTF8),
        (above ++ [r.textName], .file (Plain.audit r).toUTF8)], .ok (r.jsonFile directory)) := by
  have hjson' : made.IsFree directory above r.jsonName :=
    isFree_of_auditId hid (by decide) (by decide) (by decide) hstamp hdirectory hjson
  have htext' : made.IsFree directory above r.textName :=
    isFree_of_auditId hid (by decide) (by decide) (by decide) hstamp hdirectory htext
  refine ⟨?_, save_of_isFree habove hentry hjson' htext' hmade⟩
  rw [hmade]
  exact hasFreeNames_of_isFree habove hentry hjson' htext'

/-- the end of the name is ASCII, where the letters p and s do not occur -/
theorem ascii_of_mem_textEnd {c : Char} (hc : c ∈ r.auditId.toList ++ ".txt".toList) :
    c.toNat < 128 ∧ lowerAscii c ∉ ['p', 's'] := by
  have hall : (idCharacters ++ ".txt".toList).all
      fun c => c.toNat < 128 ∧ lowerAscii c ∉ ['p', 's'] := by
    decide
  apply of_decide_eq_true
  apply List.all_eq_true.1 hall
  rcases List.mem_append.1 hc with hc | hc
  · rw [hid] at hc
    exact List.mem_append_left _ (mem_idCharacters hc)
  · exact List.mem_append_right _ hc

theorem lowercase_textName : lowercase r.textName.text.toList =
    "audit_report_".toList ++ (r.auditId.toList ++ ".txt".toList).map lowerAscii := by
  have hlist : r.textName.text.toList =
      "audit_report_".toList ++ (r.auditId.toList ++ ".txt".toList) := by
    unfold textName
    rw [RawText.text_ofString, String.toList_append, String.toList_append, List.append_assoc]
  have hprefix : "audit_report_".toList.map lowerAscii = "audit_report_".toList := by decide
  rw [lowercase_of_ascii, hlist, List.map_append, hprefix]
  intro c hc
  rw [hlist, List.mem_append] at hc
  rcases hc with hc | hc
  · have hall : "audit_report_".toList.all (·.toNat < 128) := by decide
    exact of_decide_eq_true (List.all_eq_true.1 hall c hc)
  · exact (ascii_of_mem_textEnd hid hc).1

/-- the only p in the name comes after an e, and there is no s -/
theorem ofName_textName : DocumentationPresence.ofName r.textName = .none := by
  have hsmall := lowercase_textName hid
  generalize htail : (r.auditId.toList ++ ".txt".toList).map lowerAscii = tail at hsmall
  have hnot {c : Char} (hc : c ∈ ['p', 's']) : c ∉ tail := by
    rw [← htail]
    intro hmem
    obtain ⟨d, hd, rfl⟩ := List.mem_map.1 hmem
    exact (ascii_of_mem_textEnd hid hd).2 hc
  have hreadme : startsWith "readme".toList ("audit_report_".toList ++ tail) = false := by
    simp [startsWith, List.isPrefixOf]
  have hapi : hasFactor "api".toList ("audit_report_".toList ++ tail) = false := by
    have hrest : hasFactor ['a', 'p', 'i'] tail = false :=
      not_hasFactor_of_not_mem (c := 'p') (by simp) (hnot (by simp))
    simp [hasFactor, startsWith, List.isPrefixOf, hrest]
  have hsecurity : hasFactor "security".toList ("audit_report_".toList ++ tail) = false := by
    apply not_hasFactor_of_not_mem (c := 's') (by simp)
    have hprefix : 's' ∉ "audit_report_".toList := by simp
    intro hmem
    exact (List.mem_append.1 hmem).elim hprefix (hnot (by simp))
  unfold DocumentationPresence.ofName
  rw [hsmall]
  simp only [hreadme, hapi, hsecurity]
  split_ifs <;> rfl

end

end AuditReport

end ContractAudit
