import Mathlib.Data.List.Basic
import ContractAudit.Proofs.RuleFindings

/-!
# Findings line by line

Unless it keeps silent in the whole source, a rule looks at one line after the other and at nothing
else.  So what it finds in some lines depends on these lines and on how many others come before
them, and only the line numbers depend on the latter.

* `Finding.down n f`: the finding `f`, `n` lines further down.
* `Rule.findingsAfter n ls`: what a rule finds in the lines `ls` that come after `n` others.
* `Rule.findings_eq_findingsAfter`: that is all that a rule finds.
* `Rule.findingsAfter_append`, `Rule.findingsAfter_add`: lines after lines, and lines further down.
* `Rule.filter_le_findingsAfter`, `Rule.filter_lt_findingsAfter`: what is found in the first lines
  and in the last ones.
-/

namespace ContractAudit

open Text

/-- the finding, `n` lines further down -/
def Finding.down (n : Nat) (f : Finding) : Finding := { f with lineNumber := f.lineNumber + n }

namespace Rule

/-- what the rule finds in lines that come after `n` others -/
def findingsAfter (r : Rule) (n : Nat) (ls : List (List Char)) : List Finding :=
  (ls.zipIdx n).flatMap fun (line, i) => r.findingsOnLine (i + 1) line

section
variable {r : Rule} {n k : Nat} {ls ms : List (List Char)}

theorem findings_eq_findingsAfter {s : List Char} (hs : ¬ r.exemption.coversSource s) :
    r.findings s = r.findingsAfter 0 (lines s) := by
  rw [findings, if_neg hs]
  rfl

theorem findingsAfter_cons {line : List Char} :
    r.findingsAfter n (line :: ls) = r.findingsOnLine (n + 1) line ++ r.findingsAfter (n + 1) ls :=
  rfl

theorem findingsAfter_append :
    r.findingsAfter n (ls ++ ms) = r.findingsAfter n ls ++ r.findingsAfter (n + ls.length) ms := by
  rw [findingsAfter, List.zipIdx_append, List.flatMap_append]
  rfl

theorem findingsOnLine_add (number : Nat) (line : List Char) :
    r.findingsOnLine (number + k) line = (r.findingsOnLine number line).map (Finding.down k) := by
  unfold findingsOnLine
  split_ifs
  · rfl
  · rw [List.map_map]
    rfl

theorem findingsAfter_add :
    r.findingsAfter (n + k) ls = (r.findingsAfter n ls).map (Finding.down k) := by
  induction ls generalizing n with
  | nil => rfl
  | cons line ls ih =>
    rw [findingsAfter_cons, findingsAfter_cons, List.map_append, ← ih, ← findingsOnLine_add,
      Nat.add_right_comm n k 1]

theorem lineNumber_of_mem_findingsOnLine {number : Nat} {line : List Char} {f : Finding}
    (hf : f ∈ r.findingsOnLine number line) : f.lineNumber = number := by
  unfold findingsOnLine at hf
  split_ifs at hf
  · cases hf
  · obtain ⟨_, -, rfl⟩ := List.mem_map.1 hf
    rfl

theorem lineNumber_of_mem_findingsAfter {f : Finding} (hf : f ∈ r.findingsAfter n ls) :
    n < f.lineNumber ∧ f.lineNumber ≤ n + ls.length := by
  obtain ⟨⟨line, i⟩, hline, hf⟩ := List.mem_flatMap.1 hf
  have hnumber : f.lineNumber = i + 1 := lineNumber_of_mem_findingsOnLine hf
  have hi := List.mem_zipIdx hline
  omega

/-- what is found in the first lines -/
theorem filter_le_findingsAfter :
    (r.findingsAfter 0 (ls ++ ms)).filter (·.lineNumber ≤ ls.length) = r.findingsAfter 0 ls := by
  rw [findingsAfter_append, List.filter_append]
  have hfirst : ∀ f ∈ r.findingsAfter 0 ls, f.lineNumber ≤ ls.length := fun f hf => by
    have h := lineNumber_of_mem_findingsAfter hf
    omega
  have hlast : ∀ f ∈ r.findingsAfter (0 + ls.length) ms, ¬ f.lineNumber ≤ ls.length :=
    fun f hf => by
      have h := lineNumber_of_mem_findingsAfter hf
      omega
  rw [List.filter_eq_self.2 fun f hf => decide_eq_true (hfirst f hf),
    List.filter_eq_nil_iff.2 fun f hf => by simpa using hlast f hf, List.append_nil]

/-- what is found in the last lines -/
theorem filter_lt_findingsAfter :
    (r.findingsAfter 0 (ls ++ ms)).filter (ls.length < ·.lineNumber) =
      (r.findingsAfter 0 ms).map (Finding.down ls.length) := by
  rw [← findingsAfter_add, findingsAfter_append, List.filter_append]
  have hfirst : ∀ f ∈ r.findingsAfter 0 ls, ¬ ls.length < f.lineNumber := fun f hf => by
    have h := lineNumber_of_mem_findingsAfter hf
    omega
  have hlast : ∀ f ∈ r.findingsAfter (0 + ls.length) ms, ls.length < f.lineNumber := fun f hf => by
    have h := lineNumber_of_mem_findingsAfter hf
    omega
  rw [List.filter_eq_nil_iff.2 fun f hf => by simpa using hfirst f hf,
    List.filter_eq_self.2 fun f hf => decide_eq_true (hlast f hf), List.nil_append]

end

end Rule

end ContractAudit
