import ContractAudit.Proofs.LineFindings
import ContractAudit.Proofs.SilencedSources

/-!
# Findings in joined texts

A text that is joined of two by a line feed has the findings of the one and, further down, those of
the other.  Only the rule for functions without access control looks at more than a line: it keeps
silent in the joined text if it does so in one of the parts.

* `lineRules`: the four other rules.
* `Rule.findings_joined`: what a rule finds in a joined text.
* `Rule.filter_le_findings_of_lines`, `Rule.filter_lt_findings_of_lines`: what it finds above and
  below lines that are edited.

The main statement is `joined_findings`.
-/

namespace ContractAudit

open Text

/-- the rules that look at one line after the other and never at the whole source -/
def lineRules : List Rule := [.reentrancy, .integerOverflow, .uncheckedCall, .timestampDependence]

theorem Finding.down_down (m n : Nat) (f : Finding) : (f.down m).down n = f.down (m + n) := by
  simp [down, Nat.add_assoc]

namespace Rule

theorem not_coversSource_of_mem {r : Rule} (hr : r ∈ lineRules) (s : List Char) :
    ¬ r.exemption.coversSource s := by
  simp only [lineRules, List.mem_cons, List.not_mem_nil, or_false] at hr
  rcases hr with rfl | rfl | rfl | rfl <;> exact Bool.false_ne_true

theorem coversSource_missingAccessControl_joined_iff (a b : List Char) :
    missingAccessControl.exemption.coversSource (a ++ '\n' :: b) ↔
      missingAccessControl.exemption.coversSource a ∨
        missingAccessControl.exemption.coversSource b := by
  simp only [coversSource_iff_namesAccessControl]
  exact namesAccessControl_joined_iff a b

theorem findings_joined {r : Rule} {a b : List Char}
    (hjoined : r.exemption.coversSource (a ++ '\n' :: b) ↔
      r.exemption.coversSource a ∨ r.exemption.coversSource b) :
    r.findings (a ++ '\n' :: b) =
      if r.exemption.coversSource a ∨ r.exemption.coversSource b then []
      else r.findings a ++ (r.findings b).map (Finding.down (lineCount a)) := by
  split_ifs with hcovers
  · exact if_pos (hjoined.2 hcovers)
  · obtain ⟨ha, hb⟩ := not_or.1 hcovers
    rw [findings_eq_findingsAfter (mt hjoined.1 hcovers), findings_eq_findingsAfter ha,
      findings_eq_findingsAfter hb, lines_append, findingsAfter_append, findingsAfter_add]
    rfl

/-! ## edited lines -/

section
variable {r : Rule} {s s' : List Char} {above old new below : List (List Char)}

/-- above the edited lines the same is found -/
theorem filter_le_findings_of_lines (hr : r ∈ lineRules)
    (hs : lines s = above ++ old ++ below) (hs' : lines s' = above ++ new ++ below) :
    (r.findings s').filter (·.lineNumber ≤ above.length) =
      (r.findings s).filter (·.lineNumber ≤ above.length) := by
  have hnever := not_coversSource_of_mem hr
  rw [findings_eq_findingsAfter (hnever s), findings_eq_findingsAfter (hnever s'), hs, hs',
    List.append_assoc, List.append_assoc, filter_le_findingsAfter, filter_le_findingsAfter]

/-- below the edited lines the same is found, as far down as the lines are -/
theorem filter_lt_findings_of_lines (hr : r ∈ lineRules)
    (hs : lines s = above ++ old ++ below) (hs' : lines s' = above ++ new ++ below) :
    ((r.findings s').filter (above.length + new.length < ·.lineNumber)).map
        (Finding.down old.length) =
      ((r.findings s).filter (above.length + old.length < ·.lineNumber)).map
        (Finding.down new.length) := by
  have hnever := not_coversSource_of_mem hr
  rw [findings_eq_findingsAfter (hnever s), findings_eq_findingsAfter (hnever s'), hs, hs',
    ← List.length_append, ← List.length_append, filter_lt_findingsAfter, filter_lt_findingsAfter,
    List.map_map, List.map_map]
  refine List.map_congr_left fun f _ => ?_
  rw [Function.comp_apply, Function.comp_apply, Finding.down_down, Finding.down_down,
    List.length_append, List.length_append, Nat.add_right_comm]

end

end Rule

/-- **Joined texts.**  Each of the four rules that look at lines alone finds in the joined text
what it finds in the first part and then, further down by the lines of the first part, what it
finds in the second one.  So does the rule for functions without access control unless one of the
parts names access control.  Hence wherever some lines are replaced by others, none or more, the
four rules find the same on all other lines. -/
theorem joined_findings (a b : List Char) :
    (∀ r ∈ lineRules, r.findings (a ++ '\n' :: b) =
      r.findings a ++ (r.findings b).map (Finding.down (lineCount a))) ∧
    Rule.missingAccessControl.findings (a ++ '\n' :: b) =
      (if Rule.missingAccessControl.exemption.coversSource a ∨
          Rule.missingAccessControl.exemption.coversSource b then []
      else Rule.missingAccessControl.findings a ++
        (Rule.missingAccessControl.findings b).map (Finding.down (lineCount a))) ∧
    (Rule.missingAccessControl.exemption.coversSource (a ++ '\n' :: b) ↔
      Rule.missingAccessControl.exemption.coversSource a ∨
        Rule.missingAccessControl.exemption.coversSource b) ∧
    ∀ r ∈ lineRules, ∀ s s' above old new below,
      lines s = above ++ old ++ below → lines s' = above ++ new ++ below →
      (r.findings s').filter (·.lineNumber ≤ above.length) =
          (r.findings s).filter (·.lineNumber ≤ above.length) ∧
        ((r.findings s').filter (above.length + new.length < ·.lineNumber)).map
            (Finding.down old.length) =
          ((r.findings s).filter (above.length + old.length < ·.lineNumber)).map
            (Finding.down new.length) := by
  have hmissing := Rule.coversSource_missingAccessControl_joined_iff a b
  refine ⟨fun r hr => ?_, Rule.findings_joined hmissing, hmissing,
    fun r hr s s' above old new below hs hs' =>
      ⟨Rule.filter_le_findings_of_lines hr hs hs', Rule.filter_lt_findings_of_lines hr hs hs'⟩⟩
  have hnever := Rule.not_coversSource_of_mem hr
  have hneither := not_or.2 ⟨hnever a, hnever b⟩
  rw [Rule.findings_joined (iff_of_false (hnever _) hneither), if_neg hneither]

/-- an empty line is put between a call and a time stamp -/
theorem joined_findings_line_between :
    let s := "a.call (b);\nnow".toList
    let s' := "a.call (b);\n\nnow".toList
    let above := ["a.call (b);".toList]
    let below := ["now".toList]
    Rule.timestampDependence ∈ lineRules ∧
      lines s = above ++ [] ++ below ∧ lines s' = above ++ [[]] ++ below ∧
      ((Rule.timestampDependence.findings s').filter (1 + 1 < ·.lineNumber)).map (Finding.down 0) =
        ((Rule.timestampDependence.findings s).filter (1 + 0 < ·.lineNumber)).map
          (Finding.down 1) ∧
      ((Rule.timestampDependence.findings s).filter (1 + 0 < ·.lineNumber)).length = 1 := by
  intro s s' above below
  have hr : Rule.timestampDependence ∈ lineRules := by decide +kernel
  have hs : lines s = above ++ [] ++ below := by decide +kernel
  have hs' : lines s' = above ++ [[]] ++ below := by decide +kernel
  refine ⟨hr, hs, hs', ?_, by decide +kernel⟩
  exact ((joined_findings [] []).2.2.2 _ hr s s' above [] [[]] below hs hs').2

end ContractAudit
