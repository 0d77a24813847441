import ContractAudit.Proofs.LineFindings
import ContractAudit.Proofs.SmallForms
import ContractAudit.Proofs.TextFactors

/-!
# Sources that name access control

The rule for functions without access control keeps silent in every source that names access
control anywhere.  The words are searched for in the lower case of the whole source, but that comes
to the same as looking for them in the source itself, up to the case of ASCII.

* `NamesAccessControl s`: one of the six words stands in `s`, up to the case of ASCII.
* `coversSource_iff_namesAccessControl`: that is when the rule keeps silent.
* `namesAccessControl_iff_exists_line`: no word reaches over the end of a line.

The main statement is `silenced_sources`.
-/

namespace ContractAudit

open Text

/-- the words that speak of access control -/
def accessControlWords : List String :=
  ["onlyOwner", "require", "modifier", "access_control", "auth", "permission"]

/-- the text is a word for access control, up to the case of ASCII -/
def IsAccessControlWord (w : List Char) : Prop :=
  ∃ m ∈ accessControlWords, EqualUpToCase w m.toList

/-- a word for access control stands somewhere in the text -/
def NamesAccessControl (s : List Char) : Prop := ∃ w, w <:+: s ∧ IsAccessControlWord w

theorem coversSource_iff_namesAccessControl {s : List Char} :
    Rule.missingAccessControl.exemption.coversSource s ↔ NamesAccessControl s := by
  have hplain : accessControlWords.all fun m => isPlain (m.toList.map lowerAscii) := by
    decide +kernel
  rw [List.all_eq_true] at hplain
  show (accessControlWords.any fun m => hasFactor (lowercase m.toList) (lowercase s)) ↔ _
  rw [List.any_eq_true]
  constructor
  · rintro ⟨m, hm, h⟩
    obtain ⟨w, hw, heq⟩ := (hasFactor_lowercase_iff (hplain m hm)).1 h
    exact ⟨w, hw, m, hm, heq⟩
  · rintro ⟨w, hw, m, hm, heq⟩
    exact ⟨m, hm, (hasFactor_lowercase_iff (hplain m hm)).2 ⟨w, hw, heq⟩⟩

instance (s : List Char) : Decidable (NamesAccessControl s) :=
  decidable_of_iff _ coversSource_iff_namesAccessControl

/-! ## words stay within lines -/

theorem toLower_of_isBlank {c : Char} (hc : isBlank c) : c.toLower = c := by
  refine Char.toLower_eq_of_not_isUpper fun hupper => ?_
  simp only [Char.isUpper, decide_eq_true_iff] at hupper
  obtain ⟨hlow, hhigh⟩ := hupper
  have hlow : 65 ≤ c.toNat := hlow
  have hhigh : c.toNat ≤ 90 := hhigh
  simp only [isBlank, Bool.or_eq_true, Bool.and_eq_true, decide_eq_true_eq, beq_iff_eq] at hc
  omega

theorem IsAccessControlWord.not_isBlank {w : List Char} (hw : IsAccessControlWord w) :
    ∀ c ∈ w, ¬ isBlank c := by
  have hsmall : accessControlWords.all fun m => (m.toList.map Char.toLower).all (!isBlank ·) := by
    decide +kernel
  obtain ⟨m, hm, heq⟩ := hw
  intro c hc hblank
  -- white space has no other case
  have hmem : c ∈ m.toList.map Char.toLower := by
    rw [← toLower_of_isBlank hblank, ← heq]
    exact List.mem_map_of_mem hc
  have hnot := List.all_eq_true.1 (List.all_eq_true.1 hsmall m hm) c hmem
  exact absurd hblank (by simpa using hnot)

theorem IsAccessControlWord.ne_nil {w : List Char} (hw : IsAccessControlWord w) : w ≠ [] := by
  have hlong : accessControlWords.all fun m => !m.toList.isEmpty := by decide +kernel
  obtain ⟨m, hm, heq⟩ := hw
  rintro rfl
  have hnot := List.all_eq_true.1 hlong m hm
  rw [List.map_eq_nil_iff.1 heq.symm] at hnot
  exact Bool.false_ne_true hnot

theorem namesAccessControl_joined_iff (a b : List Char) :
    NamesAccessControl (a ++ '\n' :: b) ↔ NamesAccessControl a ∨ NamesAccessControl b := by
  have hline {w : List Char} (hw : IsAccessControlWord w) : '\n' ∉ w := fun h =>
    hw.not_isBlank '\n' h (by decide)
  unfold NamesAccessControl
  rw [← exists_or]
  refine exists_congr fun w => ?_
  rw [← or_and_right]
  exact and_congr_left fun hw => infix_joined_iff (hline hw)

/-- no word reaches over the end of a line -/
theorem namesAccessControl_iff_exists_line {s : List Char} :
    NamesAccessControl s ↔ ∃ line ∈ lines s, NamesAccessControl line :=
  iff_exists_mem_lines namesAccessControl_joined_iff s

/-! ## findings -/

theorem findings_missingAccessControl_eq (s : List Char) :
    Rule.missingAccessControl.findings s =
      if NamesAccessControl s then []
      else (lines s).zipIdx.flatMap fun (line, i) =>
        (Rule.missingAccessControl.patterns.filter fun p => p.Matches line).map fun _ =>
          .ofLine Rule.missingAccessControl.about (i + 1) line := by
  have hline (number : Nat) (line : List Char) :
      Rule.missingAccessControl.findingsOnLine number line =
        (Rule.missingAccessControl.patterns.filter fun p => p.Matches line).map fun _ =>
          .ofLine Rule.missingAccessControl.about number line := by
    have huncovered : ¬ Rule.missingAccessControl.exemption.coversLine line := Bool.false_ne_true
    rw [Rule.findingsOnLine, if_neg huncovered]
    congr 1
    refine List.filter_congr fun p _ => ?_
    rw [Bool.eq_iff_iff, decide_eq_true_iff, LinePattern.firesOn_iff]
  unfold Rule.findings
  by_cases hs : NamesAccessControl s
  · rw [if_pos hs, if_pos (coversSource_iff_namesAccessControl.2 hs)]
  · rw [if_neg hs, if_neg (mt coversSource_iff_namesAccessControl.1 hs)]
    exact List.flatMap_congr fun x _ => hline _ _

/-- **Sources that name access control.**  The rule for functions without access control keeps
silent exactly in the sources in which one of six words stands, up to the case of ASCII; no word
reaches over the end of a line.  In all other sources it has one finding for each of its patterns
that matches a line, with the number of the line. -/
theorem silenced_sources (s : List Char) :
    (Rule.missingAccessControl.exemption.coversSource s ↔ NamesAccessControl s) ∧
    (NamesAccessControl s ↔ ∃ line ∈ lines s, NamesAccessControl line) ∧
    Rule.missingAccessControl.findings s =
      (if NamesAccessControl s then []
      else (lines s).zipIdx.flatMap fun (line, i) =>
        (Rule.missingAccessControl.patterns.filter fun p => p.Matches line).map fun _ =>
          .ofLine Rule.missingAccessControl.about (i + 1) line) ∧
    ((Rule.missingAccessControl.findings s).map fun f => (f.ruleId, f.lineNumber)) =
      (if NamesAccessControl s then []
      else (lines s).zipIdx.flatMap fun (line, i) =>
        (Rule.missingAccessControl.patterns.filter fun p => p.Matches line).map fun _ =>
          ("OMEGA-003", i + 1)) ∧
    ∀ before w after, IsAccessControlWord w →
      Rule.missingAccessControl.findings (before ++ w ++ after) = [] := by
  refine ⟨coversSource_iff_namesAccessControl, namesAccessControl_iff_exists_line,
    findings_missingAccessControl_eq s, ?_, fun before w after hw => ?_⟩
  · rw [findings_missingAccessControl_eq, apply_ite (List.map _)]
    simp only [List.map_nil, List.map_flatMap, List.map_map]
    rfl
  have hnames : NamesAccessControl (before ++ w ++ after) := ⟨w, ⟨before, after, rfl⟩, hw⟩
  rw [findings_missingAccessControl_eq, if_pos hnames]

/-- Part of a longer word in a comment behind the function is enough, but the small form of the
dotted capital I makes no word. -/
theorem silenced_sources_by_a_comment :
    IsAccessControlWord "REQUIRE".toList ∧
      Rule.missingAccessControl.findings
        ("function f() public {}\n// ".toList ++ "REQUIRE".toList ++ "MENTS".toList) = [] ∧
      Rule.missingAccessControl.findings "function f() public {}\n// REQU\u0130REMENTS".toList =
        [.ofLine Rule.missingAccessControl.about 1 "function f() public {}".toList] := by
  have hword : IsAccessControlWord "REQUIRE".toList := ⟨"require", by decide, by decide⟩
  exact ⟨hword, (silenced_sources []).2.2.2.2 _ _ _ hword, by decide +kernel⟩

end ContractAudit
