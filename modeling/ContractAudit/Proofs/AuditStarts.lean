import ContractAudit.Proofs.AuditIds
import ContractAudit.Proofs.Timestamps

/-!
# The start of an audit

The instant in which an audit starts is written three times: in the id of the audit, in the report
for programs and in the report for readers.

* `IsYearText y s`: how a year is written.
* `length_auditHash`: the id has as many digits of the hash as it should.
* `AuditReport.components_jsonFile`, `AuditReport.components_textFile`: the files that are named for
  an id.
* `auditId_congr`: far from 1970 the id depends on nothing but the second and the path.

The main statement is `starts_of_audits`.
-/

namespace ContractAudit

open Text

/-! ## the parts of an instant -/

/-- a year has four digits from 0 to 9999, and otherwise a sign and at least four -/
def IsYearText (y : Int) (s : String) : Prop :=
  if 0 ≤ y ∧ y ≤ 9999 then s.length = 4 ∧ AllDigits s.toList
  else ∃ digits : String, s = (if y < 0 then "-" else "+") ++ digits ∧ 4 ≤ digits.length ∧
    AllDigits digits.toList

theorem le_length_padded (width n : Nat) : width ≤ (Instant.padded width n).length := by
  rw [← String.length_toList, Instant.toList_padded, List.length_append, List.length_replicate]
  omega

theorem isYearText_yearText (y : Int) : IsYearText y (Instant.yearText y) := by
  unfold IsYearText Instant.yearText
  split
  · refine ⟨?_, Instant.allDigits_padded _ _⟩
    rw [← String.length_toList]
    exact Instant.length_padded (by decide) (by omega)
  · exact ⟨_, rfl, le_length_padded _ _, Instant.allDigits_padded _ _⟩

/-- a number below a hundred is written with two digits -/
theorem two_digits {n : Nat} (hn : n < 100) :
    (Instant.padded 2 n).length = 2 ∧ AllDigits (Instant.padded 2 n).toList := by
  rw [← String.length_toList]
  exact ⟨Instant.length_padded (by decide) hn, Instant.allDigits_padded _ _⟩

/-! ## the id -/

theorem length_auditHash (start : Instant) (project : Path) :
    (auditHash start project).length = 32 := by
  rfl

theorem length_hexText (bytes : List UInt8) : (hexText bytes).length = 2 * bytes.length := by
  rw [hexText, String.length_ofList]
  induction bytes with
  | nil => rfl
  | cons b bytes ih =>
    rw [List.flatMap_cons, List.length_append, ih, List.length_cons]
    simp
    omega

theorem isName_auditId (start : Instant) (project : Path) :
    IsName (.ofString (auditId start project)) := by
  apply isName_of_length
  · unfold auditId
    rw [RawText.ofString_append, RawText.ofString_append, RawText.ofString_append,
      RawText.size_append, RawText.size_append, RawText.size_append]
    exact Nat.le_add_right_of_le (Nat.le_add_right_of_le (Nat.le_add_right_of_le (by decide)))
  · rw [RawText.mem_bytes_ofString_iff (c := '/') rfl (by decide)]
    exact not_mem_auditId (by decide)

/-- far from 1970 the id depends on nothing but the second and the path -/
theorem auditId_congr {a b : Instant} {project : Path} (ha : ¬ fitsInt64 a.nanosSince1970)
    (hb : ¬ fitsInt64 b.nanosSince1970) (hseconds : a.seconds = b.seconds)
    (hleap : a.isLeap = b.isLeap) : auditId a project = auditId b project := by
  have hzero {t : Instant} (ht : ¬ fitsInt64 t.nanosSince1970) : t.epochNanos = 0 := if_neg ht
  have hdate : a.date = b.date := by
    rw [Instant.date, Instant.date, Instant.dayNumber, Instant.dayNumber, hseconds]
  have hclock : a.clock = b.clock := by
    rw [Instant.clock, Instant.clock, Instant.secondOfDay, Instant.secondOfDay, hseconds, hleap]
  rw [auditId, auditId, auditHash, auditHash, hzero ha, hzero hb, Instant.stamp, Instant.stamp,
    hdate, hclock]

/-! ## the files -/

theorem Path.components_of_isName {name : RawText} (h : IsName name) :
    (ofRaw name).components = [.name name] := by
  have hdot : name.bytes ≠ [dotByte] := fun hdot => h.2.1 (RawText.bytes_inj.1 hdot)
  rw [components_eq, isAbsolute_of_isName h]
  show componentsOf false (splitSlash name.bytes) = _
  rw [splitSlash_of_not_mem h.2.2.2, componentsOf, List.filterMap_cons,
    Component.ofPiece?_of_isName h]
  simp [hdot]

/-- a path below another has one component more, also below the empty path -/
theorem Path.components_join_of_isName (p : Path) {name : RawText} (h : IsName name) :
    (p.join ⟨name⟩).components = p.components ++ [.name name] := by
  by_cases hp : p.raw.isEmpty
  · obtain ⟨⟨bytes⟩⟩ := p
    obtain rfl : bytes = [] := RawText.isEmpty_iff.1 hp
    rw [join, if_pos (.inr rfl)]
    exact components_of_isName h
  · exact components_join hp h

namespace AuditReport

variable (r : AuditReport)

/-- the seventh line of the report for readers -/
theorem exists_audit_eq : ∃ rest, Plain.audit r =
    "OMEGA SECURITY AUDIT REPORT\n" ++ String.ofList (List.replicate 60 '=') ++
      "\n\nAudit ID: " ++ r.auditId ++ "\nProject: " ++ r.projectName ++
      "\nAudit Level: " ++ r.level.name ++ "\nStatus: " ++ r.status.name ++
      "\nStarted: " ++ r.startTime.rfc3339 "+00:00" ++ "\n" ++ rest := by
  have hid : "\n\nAudit ID: " = "\n\n" ++ "Audit ID: " := by decide
  have hproject : "\nProject: " = "\n" ++ "Project: " := by decide
  have hlevel : "\nAudit Level: " = "\n" ++ "Audit Level: " := by decide
  have hstatus : "\nStatus: " = "\n" ++ "Status: " := by decide
  have hstarted : "\nStarted: " = "\n" ++ "Started: " := by decide
  unfold Plain.audit Plain.header
  rw [hid, hproject, hlevel, hstatus, hstarted]
  simp only [String.append_assoc]
  exact ⟨_, rfl⟩

/-- the start in the report for programs -/
theorem exists_members_parse_write : ∃ ms, (Json.parse r.write).bind Json.members? = some ms ∧
    ms.lookup "start_time" = some (Json.text (r.startTime.rfc3339 "Z")) := by
  rw [write, Json.parse_pretty r.isPlain_toJson, Option.bind_some, toJson, Json.members?_record]
  refine ⟨_, rfl, ?_⟩
  simp only [List.lookup_cons, String.reduceBEq]
  rfl

end AuditReport

/-- **The start of an audit is written in three places with the same digits**: in its id, which is a
single name, so that the reports lie directly in the directory that they are kept in; and in both
reports, where they name the instant.  Far from 1970 the id depends on nothing but the second and
the path. -/
theorem starts_of_audits {start : Instant} (hstart : start.IsValid) (project : Path) :
    let id := auditId start project
    (∃ year month day hour minute second hash : String,
      (∀ zone, start.rfc3339 zone = year ++ "-" ++ month ++ "-" ++ day ++ "T" ++
        hour ++ ":" ++ minute ++ ":" ++ second ++ start.fractionText ++ zone) ∧
      id = "AUDIT_" ++ year ++ month ++ day ++ "_" ++ hour ++ minute ++ second ++ "_" ++ hash ∧
      IsYearText start.date.year year ∧
      (∀ s ∈ [month, day, hour, minute, second], s.length = 2 ∧ AllDigits s.toList) ∧
      hash.length = 6 ∧ ∀ c ∈ hash.toList, c ∈ "0123456789abcdef".toList) ∧
    (∀ c ∈ id.toList, c ∈ "AUDIT_+-0123456789abcdef".toList) ∧
    (Path.mk id).components = [.name id] ∧
    (∀ r : AuditReport, r.auditId = id → r.startTime = start →
      (∀ directory : Path,
        (r.jsonFile directory).components = directory.components ++ [.name r.jsonName] ∧
        (r.textFile directory).components = directory.components ++ [.name r.textName] ∧
        ∀ (t : FileTree) (p : Path), r.HasNoLinks (t.makeDirectories directory).1 directory →
          (r.save t directory).2 = .ok p →
          ∃ above, (r.save t directory).1.LeadsTo directory above ∧
            (r.save t directory).1.locate .followed (r.jsonFile directory) =
              .ok (above ++ [r.jsonName]) ∧
            (r.save t directory).1.locate .followed (r.textFile directory) =
              .ok (above ++ [r.textName])) ∧
      (∃ rest, Plain.audit r =
        "OMEGA SECURITY AUDIT REPORT\n" ++ String.ofList (List.replicate 60 '=') ++
          "\n\nAudit ID: " ++ id ++ "\nProject: " ++ r.projectName ++
          "\nAudit Level: " ++ r.level.name ++ "\nStatus: " ++ r.status.name ++
          "\nStarted: " ++ start.rfc3339 "+00:00" ++ "\n" ++ rest) ∧
      ∃ ms, (Json.parse r.write).bind Json.members? = some ms ∧
        ms.lookup "start_time" = some (Json.text (start.rfc3339 "Z"))) ∧
    (Instant.ofText? (start.rfc3339 "+00:00") = some start ∧
      Instant.ofText? (start.rfc3339 "Z") = some start) ∧
    (∀ other : Instant, ¬ fitsInt64 start.nanosSince1970 → ¬ fitsInt64 other.nanosSince1970 →
      other.seconds = start.seconds → other.isLeap = start.isLeap →
      auditId other project = id) := by
  intro id
  obtain ⟨hhour, hminute, hsecond⟩ := Instant.clock_le start
  have hmonth : start.date.month ≤ 12 := Date.month_ofDays_le _
  have hday : start.date.day ≤ 31 := Date.day_ofDays_le _
  have hslash {r : AuditReport} (hid : r.auditId = id) : '/' ∉ r.auditId.toList :=
    AuditReport.slash_not_mem_auditId hid
  refine ⟨⟨Instant.yearText start.date.year, Instant.padded 2 start.date.month,
    Instant.padded 2 start.date.day, Instant.padded 2 start.clock.1,
    Instant.padded 2 start.clock.2.1, Instant.padded 2 start.clock.2.2,
    hexText ((auditHash start project).take 3), fun zone => rfl, ?_, isYearText_yearText _, ?_, ?_,
    fun c => mem_hexText⟩, ?_, Path.components_of_isName (isName_auditId start project),
    fun r hid hr => ⟨fun directory => ⟨?_, ?_, ?_⟩, ?_, ?_⟩,
    ⟨Instant.ofText?_rfc3339_offset hstart, Instant.ofText?_rfc3339 hstart⟩, ?_⟩
  · show "AUDIT_" ++ start.stamp ++ "_" ++ _ = _
    unfold Instant.stamp
    simp only [String.append_assoc]
  · simp only [List.forall_mem_cons, List.not_mem_nil, false_implies, implies_true, and_true]
    exact ⟨two_digits (by omega), two_digits (by omega), two_digits (by omega),
      two_digits (by omega), two_digits (by omega)⟩
  · rw [length_hexText, List.length_take, length_auditHash]
    rfl
  · intro c hc
    have hall : idCharacters.all ("AUDIT_+-0123456789abcdef".toList.contains ·) := by decide
    exact List.contains_iff_mem.1 (List.all_eq_true.1 hall c (mem_idCharacters hc))
  · exact directory.components_join_of_isName (AuditReport.isName_jsonName (hslash hid))
  · exact directory.components_join_of_isName (AuditReport.isName_textName (hslash hid))
  · exact fun t p hlink hp => AuditReport.exists_places_of_save (hslash hid) hlink hp
  · rw [← hid, ← hr]
    exact r.exists_audit_eq
  · rw [← hr]
    exact r.exists_members_parse_write
  · exact fun other hstart' hother hseconds hleap => auditId_congr hother hstart' hseconds hleap

/-- an audit that starts in a leap second behind the year 9999 -/
theorem starts_of_audits_leapSecond :
    let start : Instant := ⟨327419020799, 1500000000⟩
    let project : Path := ⟨"project"⟩
    start.IsValid ∧ start.rfc3339 "Z" = "+12345-06-30T23:59:60.500Z" ∧
    start.stamp = "+123450630_235960" ∧
    (Path.mk (auditId start project)).components = [.name (auditId start project)] ∧
    Instant.ofText? (start.rfc3339 "+00:00") = some start ∧
    auditId ⟨327419020799, 1000000000⟩ project = auditId start project := by
  intro start project
  have hvalid : start.IsValid := by decide +kernel
  have hfar : ¬ fitsInt64 start.nanosSince1970 ∧
      ¬ fitsInt64 (Instant.mk 327419020799 1000000000).nanosSince1970 ∧
      (Instant.mk 327419020799 1000000000).isLeap = start.isLeap := by
    decide +kernel
  obtain ⟨-, -, hname, -, ⟨hread, -⟩, hsame⟩ := starts_of_audits hvalid project
  exact ⟨hvalid, by decide +kernel, by decide +kernel, hname, hread,
    hsame _ hfar.1 hfar.2.1 rfl hfar.2.2⟩

end ContractAudit
