import ContractAudit.Analysis.Documentation
import ContractAudit.Audit.Metrics
import ContractAudit.Finding
import ContractAudit.Proofs.ExactScores
import ContractAudit.Proofs.RiskScores

/-!
# The range of scores

In exact numbers every score of a source and of a project lies between 0 and 100, and no division
on the way is by zero.

* `ScoreNumber (Option ℚ)`: fractions where a division by zero has no result.
* `FileMetrics.ofSource_checked`, `AuditMetrics.aggregate_checked`: the metrics have a result even
  so, and it is the same.
* `IsScore x`: a fraction from 0 to 100.
* `LiesWithin x xs`: a fraction between the smallest and the largest of some.
* `liesWithin_mean`: so does a mean.

The main statement is `bounded_scores`.
-/

namespace ContractAudit

open Text

/-! ## divisions -/

/-- fractions where a division by zero has no result, nor has what is computed from it -/
instance : ScoreNumber (Option ℚ) where
  ofCount n := some n
  add := Option.map₂ (· + ·)
  sub := Option.map₂ (· - ·)
  mul := Option.map₂ (· * ·)
  div x y := x.bind fun p => y.bind fun q => if q = 0 then none else some (p / q)
  smaller := Option.map₂ min
  larger := Option.map₂ max

theorem div_checked (p : ℚ) {n : Nat} (hn : 0 < n) :
    ScoreNumber.div (some p) (ScoreNumber.ofCount n) = some (p / n) :=
  if_neg (Nat.cast_ne_zero.2 (Nat.ne_of_gt hn))

theorem mean_checked (x : ℚ) (xs : List ℚ) : mean (some x) (xs.map some) = some (mean x xs) := by
  have hsum : (xs.map some).foldl ScoreNumber.add (some x) = some (xs.foldl ScoreNumber.add x) := by
    induction xs generalizing x with
    | nil => rfl
    | cons y xs ih => exact ih (ScoreNumber.add x y)
  rw [mean, hsum, List.length_map]
  exact div_checked _ (Nat.succ_pos _)

namespace FileMetrics

/-- the same metrics in other numbers -/
def map {α β : Type} (f : α → β) (m : FileMetrics α) : FileMetrics β :=
  ⟨m.lines, f m.complexityScore, f m.gasEfficiencyScore, f m.codeQualityScore⟩

/-- the three scores -/
def scores {α : Type} (m : FileMetrics α) : List α :=
  [m.complexityScore, m.gasEfficiencyScore, m.codeQualityScore]

/-- every division for the metrics of a source has a result -/
theorem ofSource_checked (s : List Char) :
    (ofSource s : FileMetrics (Option ℚ)) = (ofSource s : FileMetrics ℚ).map some := by
  have hcomplexity (f : ComplexityFactors) :
      (f.score (lineCount s) : Option ℚ) = some (f.score (lineCount s)) := by
    show ScoreNumber.smaller (ScoreNumber.mul (ScoreNumber.div (some _) (ScoreNumber.ofCount _)) _)
      _ = _
    rw [div_checked _ (Nat.lt_of_lt_of_le Nat.one_pos (Nat.le_max_right _ _))]
    rfl
  have hquality (q : QualityIndicators) :
      (q.score (lineCount s) : Option ℚ) = some (q.score (lineCount s)) := by
    show ScoreNumber.smaller (ScoreNumber.add (ScoreNumber.add
      (ScoreNumber.mul (ScoreNumber.div (some _) (ScoreNumber.ofCount _)) _)
      (ScoreNumber.mul (ScoreNumber.div (some _) (ScoreNumber.ofCount _)) _))
      (ScoreNumber.mul (ScoreNumber.div (some _) (ScoreNumber.ofCount _)) _)) _ = _
    rw [div_checked _ (lineCount_pos s), div_checked _ (lineCount_pos s),
      div_checked _ (Nat.lt_of_lt_of_le Nat.one_pos (Nat.le_max_right _ _))]
    rfl
  rw [ofSource, hcomplexity, hquality]
  rfl

end FileMetrics

namespace AuditMetrics

/-- the same metrics in other numbers -/
def map {α β : Type} (f : α → β) (m : AuditMetrics α) : AuditMetrics β :=
  ⟨m.totalLines, f m.complexityScore, f m.securityScore, f m.gasEfficiencyScore,
    f m.codeQualityScore, f m.documentationScore⟩

/-- the five scores -/
def scores {α : Type} (m : AuditMetrics α) : List α :=
  [m.complexityScore, m.securityScore, m.gasEfficiencyScore, m.codeQualityScore,
    m.documentationScore]

/-- the division for every mean has a result -/
theorem aggregate_checked (files : List (FileMetrics ℚ)) (security documentation : ℚ) :
    aggregate (files.map (FileMetrics.map some)) (some security) (some documentation) =
      (aggregate files security documentation).map (map some) := by
  cases files with
  | nil => rfl
  | cons f fs =>
    have hmean (score : FileMetrics ℚ → ℚ) (score' : FileMetrics (Option ℚ) → Option ℚ)
        (hscore : ∀ m, score' (m.map some) = some (score m)) :
        mean (score' (f.map some)) ((fs.map (FileMetrics.map some)).map score') =
          some (mean (score f) (fs.map score)) := by
      rw [← mean_checked, hscore, List.map_map, List.map_map]
      congr 1
      exact List.map_congr_left fun m _ => hscore m
    show Except.ok (AuditMetrics.mk _ _ _ _ _ _) = Except.ok (AuditMetrics.mk _ _ _ _ _ _)
    rw [hmean (·.complexityScore) (·.complexityScore) fun _ => rfl,
      hmean (·.gasEfficiencyScore) (·.gasEfficiencyScore) fun _ => rfl,
      hmean (·.codeQualityScore) (·.codeQualityScore) fun _ => rfl, List.map_cons, List.foldr_cons,
      List.foldr_cons, List.foldr_map]
    rfl

end AuditMetrics

/-! ## ranges -/

/-- a fraction from 0 to 100 -/
def IsScore (x : ℚ) : Prop := 0 ≤ x ∧ x ≤ 100

namespace FileMetrics

theorem isScore_complexityScore (s : List Char) :
    IsScore (ofSource s : FileMetrics ℚ).complexityScore := by
  rw [ComplexityFactors.score_eq]
  exact ⟨le_min (by positivity) (by norm_num), min_le_right _ _⟩

theorem isScore_gasEfficiencyScore (s : List Char) :
    IsScore (ofSource s : FileMetrics ℚ).gasEfficiencyScore := by
  have hlost : (0 : ℚ) ≤ (GasIssues.ofSource s).total * 5 := by positivity
  rw [GasIssues.score_eq]
  exact ⟨le_max_right _ _, max_le (sub_le_self 100 hlost) (by norm_num)⟩

theorem isScore_codeQualityScore (s : List Char) :
    IsScore (ofSource s : FileMetrics ℚ).codeQualityScore := by
  have hperLine (n m k : Nat) : (0 : ℚ) ≤ n / m * k := by positivity
  refine ⟨le_min ?_ (Nat.cast_nonneg 100), min_le_right _ ((100 : ℕ) : ℚ)⟩
  exact add_nonneg (add_nonneg (hperLine _ _ _) (hperLine _ _ _)) (hperLine _ _ _)

theorem isScore_of_mem_scores {s : List Char} {x : ℚ}
    (hx : x ∈ (ofSource s : FileMetrics ℚ).scores) : IsScore x := by
  simp only [scores, List.mem_cons, List.not_mem_nil, or_false] at hx
  rcases hx with rfl | rfl | rfl
  · exact isScore_complexityScore s
  · exact isScore_gasEfficiencyScore s
  · exact isScore_codeQualityScore s

end FileMetrics

theorem isScore_securityScore (l : List Severity) : IsScore (securityScore l) := by
  have hlost : (lostPoints (SeverityCounts.ofList l) : ℚ) ≤ 100 := by
    exact_mod_cast lostPoints_le _
  rw [securityScore_eq]
  exact ⟨sub_nonneg.2 hlost, sub_le_self _ (Nat.cast_nonneg _)⟩

theorem DocumentationPresence.isScore_score (p : DocumentationPresence) : IsScore p.score := by
  rcases p with ⟨readme, api, security⟩
  cases readme <;> cases api <;> cases security <;>
    norm_num [IsScore, score, ScoreNumber.add, ScoreNumber.ofCount]

/-! ## means -/

/-- the fraction lies between the smallest and the largest of some others -/
def LiesWithin (x : ℚ) (xs : List ℚ) : Prop := (∃ y ∈ xs, y ≤ x) ∧ ∃ y ∈ xs, x ≤ y

theorem LiesWithin.isScore {x : ℚ} {xs : List ℚ} (h : LiesWithin x xs)
    (hxs : ∀ y ∈ xs, IsScore y) : IsScore x := by
  obtain ⟨⟨y, hy, hyx⟩, z, hz, hxz⟩ := h
  exact ⟨(hxs y hy).1.trans hyx, hxz.trans (hxs z hz).2⟩

theorem mean_mul_length (x : ℚ) (xs : List ℚ) :
    mean x xs * (x :: xs).length = (x :: xs).sum := by
  have hfold : xs.foldl ScoreNumber.add x = (x :: xs).sum := by
    induction xs generalizing x with
    | nil => exact (add_zero x).symm
    | cons y xs ih =>
      rw [List.foldl_cons, ih, List.sum_cons, List.sum_cons, List.sum_cons, ← add_assoc]
      rfl
  show xs.foldl ScoreNumber.add x / ((xs.length + 1 : ℕ) : ℚ) * _ = _
  rw [hfold, List.length_cons, div_mul_cancel₀ _ (Nat.cast_ne_zero.2 (Nat.succ_ne_zero _))]

theorem liesWithin_mean (x : ℚ) (xs : List ℚ) : LiesWithin (mean x xs) (x :: xs) := by
  -- as many means as there are numbers have the sum of the numbers
  have hsum : ((x :: xs).map fun _ => mean x xs).sum = ((x :: xs).map id).sum := by
    rw [List.map_const', List.sum_replicate, nsmul_eq_mul, mul_comm, mean_mul_length, List.map_id]
  exact ⟨List.exists_le_of_sum_le (List.cons_ne_nil x xs) id (fun _ => mean x xs) hsum.ge,
    List.exists_le_of_sum_le (List.cons_ne_nil x xs) (fun _ => mean x xs) id hsum.le⟩

/-! ## all scores -/

theorem sum_lines (sources : List (List Char)) :
    ((sources.map .ofSource : List (FileMetrics ℚ)).foldr (fun f n => f.lines + n) 0) =
      (sources.map lineCount).sum := by
  rw [List.foldr_map, List.sum_eq_foldr, List.foldr_map]
  rfl

theorem length_le_sum_lineCount (sources : List (List Char)) :
    sources.length ≤ (sources.map lineCount).sum := by
  have hpos : ∀ n ∈ sources.map lineCount, 1 ≤ n :=
    List.forall_mem_map.2 fun s _ => lineCount_pos s
  have hle := List.card_nsmul_le_sum _ 1 hpos
  rwa [List.length_map, smul_eq_mul, Nat.mul_one] at hle

/-- **Bounded scores.**  In exact numbers the three scores of every source and the five scores of
every project lie between 0 and 100, and computed with fractions that have no result for a division
by zero they are the same.  The means of a project lie between the scores of its sources, its lines
are theirs, at least one for each.  A project without sources has no metrics. -/
theorem bounded_scores :
    (∀ s, let m : FileMetrics ℚ := .ofSource s
      1 ≤ m.lines ∧ (∀ x ∈ m.scores, IsScore x) ∧
        (FileMetrics.ofSource s : FileMetrics (Option ℚ)) = m.map some) ∧
    (∀ (s : List Char) (ss : List (List Char)) (fs : List Finding)
        (documents : DocumentationPresence),
      let files : List (FileMetrics ℚ) := (s :: ss).map .ofSource
      let severities := fs.map (·.severity)
      ∃ m, AuditMetrics.aggregate files (securityScore severities) documents.score = .ok m ∧
        (∀ x ∈ m.scores, IsScore x) ∧
        LiesWithin m.complexityScore (files.map (·.complexityScore)) ∧
        LiesWithin m.gasEfficiencyScore (files.map (·.gasEfficiencyScore)) ∧
        LiesWithin m.codeQualityScore (files.map (·.codeQualityScore)) ∧
        m.totalLines = ((s :: ss).map lineCount).sum ∧ (s :: ss).length ≤ m.totalLines ∧
        AuditMetrics.aggregate ((s :: ss).map .ofSource) (securityScore severities : Option ℚ)
          documents.score = .ok (m.map some)) ∧
    ∀ (α : Type) [ScoreNumber α] (security documentation : α),
      AuditMetrics.aggregate [] security documentation = .error .noFiles := by
  refine ⟨fun s => ⟨lineCount_pos s, fun _ => FileMetrics.isScore_of_mem_scores,
    FileMetrics.ofSource_checked s⟩, fun s ss fs documents => ?_, fun _ _ _ _ => rfl⟩
  intro files severities
  have hscores (score : FileMetrics ℚ → ℚ) (hscore : ∀ s, IsScore (score (.ofSource s))) :
      ∀ x ∈ files.map score, IsScore x :=
    List.forall_mem_map.2 (List.forall_mem_map.2 fun s _ => hscore s)
  have hcomplexity : LiesWithin _ (files.map (·.complexityScore)) := liesWithin_mean _ _
  have hgas : LiesWithin _ (files.map (·.gasEfficiencyScore)) := liesWithin_mean _ _
  have hquality : LiesWithin _ (files.map (·.codeQualityScore)) := liesWithin_mean _ _
  refine ⟨_, rfl, ?_, hcomplexity, hgas, hquality, sum_lines (s :: ss), ?_, ?_⟩
  · intro x hx
    simp only [AuditMetrics.scores, List.mem_cons, List.not_mem_nil, or_false] at hx
    rcases hx with rfl | rfl | rfl | rfl | rfl
    · exact hcomplexity.isScore (hscores _ FileMetrics.isScore_complexityScore)
    · exact isScore_securityScore severities
    · exact hgas.isScore (hscores _ FileMetrics.isScore_gasEfficiencyScore)
    · exact hquality.isScore (hscores _ FileMetrics.isScore_codeQualityScore)
    · exact documents.isScore_score
  · exact (length_le_sum_lineCount (s :: ss)).trans_eq (sum_lines (s :: ss)).symm
  · have hfiles : ((s :: ss).map FileMetrics.ofSource : List (FileMetrics (Option ℚ))) =
        files.map (FileMetrics.map some) := by
      rw [List.map_map]
      exact List.map_congr_left fun s _ => FileMetrics.ofSource_checked s
    rw [hfiles]
    exact AuditMetrics.aggregate_checked files (securityScore severities) documents.score

end ContractAudit
