import Mathlib.Data.List.Nodup
import ContractAudit.Proofs.TextFactors
import ContractAudit.Scan.Run

/-!
# What rules find

All that rules do in a source is to look: every rule at every line with every one of its patterns,
in this order.  Some of these looks are hits, and there is one finding for each hit.

* `Look`: a rule, a line with its number, and a pattern.
* `looks s`: all looks at a source, in the order of rules, lines and patterns.
* `Look.IsHit s`: the pattern matches, and neither line nor source is exempt.
* `hits s`: the looks that are hits.
* `Rule.findings_eq`: what a rule finds are its hits.
* `findingsIn_eq`: so it is for all rules together, and `scanText_eq_findingsIn`,
  `flatMap_findingsPerRule` say that the rules one by one come to the same.
* `countP_findingsIn`: how many findings a rule has on a line.
* `exists_of_mem_findingsIn`, `exists_hit_of_mem_findingsIn`: where a finding comes from.

The main statement is `findings_are_hits`.
-/

namespace ContractAudit

open Text

/-! ## looks and hits -/

/-- a rule looks at a line with a pattern -/
structure Look where
  rule : Rule
  /-- of the line, counted from one -/
  number : Nat
  line : List Char
  pattern : LinePattern

namespace Look

/-- the pattern matches the line, and neither the line nor the whole source `s` is exempt -/
def IsHit (s : List Char) (x : Look) : Prop :=
  ¬ x.rule.exemption.coversSource s ∧ ¬ x.rule.exemption.coversLine x.line ∧
    x.pattern.Matches x.line

instance (s : List Char) (x : Look) : Decidable (x.IsHit s) := by unfold IsHit; infer_instance

/-- what is reported of a hit -/
def finding (x : Look) : Finding := .ofLine x.rule.about x.number x.line

end Look

/-- the looks of a rule at a line -/
def Rule.looksAtLine (r : Rule) (number : Nat) (line : List Char) : List Look :=
  r.patterns.map (Look.mk r number line)

def Rule.looks (r : Rule) (s : List Char) : List Look :=
  (lines s).zipIdx.flatMap fun (line, i) => r.looksAtLine (i + 1) line

def looks (s : List Char) : List Look := catalogue.flatMap (·.looks s)

/-- the looks at a source that are hits -/
def hits (s : List Char) : List Look := (looks s).filter fun x => x.IsHit s

/-- each pattern of each rule of the catalogue looks at each line -/
theorem mem_looks_iff {s : List Char} {x : Look} : x ∈ looks s ↔
    x.rule ∈ catalogue ∧ x.pattern ∈ x.rule.patterns ∧
      ∃ i, (lines s)[i]? = some x.line ∧ x.number = i + 1 := by
  constructor
  · intro hx
    obtain ⟨r, hr, hx⟩ := List.mem_flatMap.1 hx
    obtain ⟨⟨line, i⟩, hline, hx⟩ := List.mem_flatMap.1 hx
    obtain ⟨p, hp, rfl⟩ := List.mem_map.1 hx
    exact ⟨hr, hp, i, List.mk_mem_zipIdx_iff_getElem?.1 hline, rfl⟩
  · obtain ⟨r, number, line, p⟩ := x
    rintro ⟨hr, hp, i, hline, rfl⟩
    have hplace : (line, i) ∈ (lines s).zipIdx := List.mk_mem_zipIdx_iff_getElem?.2 hline
    exact List.mem_flatMap.2 ⟨r, hr, List.mem_flatMap.2 ⟨_, hplace, List.mem_map_of_mem hp⟩⟩

theorem mem_hits_iff {s : List Char} {x : Look} : x ∈ hits s ↔
    (x.rule ∈ catalogue ∧ x.pattern ∈ x.rule.patterns ∧
      ∃ i, (lines s)[i]? = some x.line ∧ x.number = i + 1) ∧ x.IsHit s := by
  rw [hits, List.mem_filter, mem_looks_iff, decide_eq_true_iff]

/-! ## findings are hits -/

theorem Rule.findingsOnLine_eq {r : Rule} {s : List Char} (hs : ¬ r.exemption.coversSource s)
    (number : Nat) (line : List Char) :
    r.findingsOnLine number line =
      ((r.looksAtLine number line).filter fun x => x.IsHit s).map Look.finding := by
  unfold findingsOnLine looksAtLine
  by_cases hl : r.exemption.coversLine line
  · rw [if_pos hl, List.filter_map, List.filter_eq_nil_iff.2 fun p _ => by simp [Look.IsHit, hl]]
    rfl
  · rw [if_neg hl, List.filter_map, List.map_map]
    have h : ∀ p : LinePattern,
        ((fun x : Look => decide (x.IsHit s)) ∘ Look.mk r number line) p = p.firesOn line := by
      intro p
      rw [Function.comp_apply, Bool.eq_iff_iff, decide_eq_true_iff, LinePattern.firesOn_iff]
      simp [Look.IsHit, hs, hl]
    rw [List.filter_congr fun p _ => h p]
    rfl

theorem Rule.findings_eq (r : Rule) (s : List Char) :
    r.findings s = ((r.looks s).filter fun x => x.IsHit s).map Look.finding := by
  have hrule : ∀ x ∈ r.looks s, x.rule = r := by
    intro x hx
    obtain ⟨_, _, hx⟩ := List.mem_flatMap.1 hx
    obtain ⟨p, _, rfl⟩ := List.mem_map.1 hx
    rfl
  unfold findings
  by_cases hs : r.exemption.coversSource s
  · rw [if_pos hs, List.filter_eq_nil_iff.2 fun x hx => by simp [Look.IsHit, hrule x hx, hs]]
    rfl
  · rw [if_neg hs, looks, List.filter_flatMap, List.map_flatMap]
    exact List.flatMap_congr fun x _ => findingsOnLine_eq hs _ _

theorem findingsIn_eq (s : List Char) : findingsIn s = (hits s).map Look.finding := by
  rw [hits, looks, List.filter_flatMap, List.map_flatMap]
  exact List.flatMap_congr fun r _ => r.findings_eq s

theorem flatMap_findingsPerRule (s : List Char) :
    (findingsPerRule s).flatMap (·.2) = findingsIn s := by
  rw [findingsPerRule, List.flatMap_map]
  rfl

theorem scanText_eq_findingsIn (s : List Char) : scanText s = findingsIn s := by
  rw [scanText, ← List.flatMap_eq_foldl, flatMap_findingsPerRule]

/-! ## how many there are -/

/-- what only one part of a list, known by its key, has to keep -/
theorem filter_flatMap_of_key {α β κ : Type} (key : α → κ) {f : α → List β} {p : β → Bool}
    {l : List α} (hl : (l.map key).Nodup) {a : α} (ha : a ∈ l)
    (h : ∀ b ∈ l, ∀ x ∈ f b, p x → key b = key a) :
    (l.flatMap f).filter p = (f a).filter p := by
  induction l with
  | nil => exact absurd ha List.not_mem_nil
  | cons b l ih =>
    rw [List.map_cons, List.nodup_cons] at hl
    rw [List.flatMap_cons, List.filter_append]
    rcases List.mem_cons.1 ha with rfl | ha
    · have hrest : (l.flatMap f).filter p = [] := by
        rw [List.filter_eq_nil_iff]
        intro x hx hp
        obtain ⟨c, hc, hx⟩ := List.mem_flatMap.1 hx
        have hkey := h c (List.mem_cons_of_mem _ hc) x hx hp
        exact hl.1 (hkey ▸ List.mem_map_of_mem hc)
      rw [hrest, List.append_nil]
    · have hfirst : (f b).filter p = [] := by
        rw [List.filter_eq_nil_iff]
        intro x hx hp
        have hkey := h b List.mem_cons_self x hx hp
        exact hl.1 (hkey ▸ List.mem_map_of_mem ha)
      rw [hfirst, List.nil_append, ih hl.2 ha fun c hc => h c (List.mem_cons_of_mem _ hc)]

/-- what only one part of a list, known by its key, has to count -/
theorem countP_flatMap_of_key {α β κ : Type} (key : α → κ) {f : α → List β} {p : β → Bool}
    {l : List α} (hl : (l.map key).Nodup) {a : α} (ha : a ∈ l)
    (h : ∀ b ∈ l, ∀ x ∈ f b, p x → key b = key a) :
    (l.flatMap f).countP p = (f a).countP p := by
  rw [List.countP_eq_length_filter, filter_flatMap_of_key key hl ha h,
    ← List.countP_eq_length_filter]

theorem nodup_catalogue_ids : (catalogue.map (·.about.id)).Nodup := by decide

/-- on a line a rule has as many findings as it has patterns that match, unless it keeps silent -/
theorem countP_findingsIn {r : Rule} (hr : r ∈ catalogue) {s line : List Char} {i : Nat}
    (hline : (lines s)[i]? = some line) :
    (findingsIn s).countP (fun f => f.ruleId = r.about.id ∧ f.lineNumber = i + 1) =
      if r.exemption.coversSource s ∨ r.exemption.coversLine line then 0
      else r.patterns.countP fun p => p.Matches line := by
  let wanted (f : Finding) : Bool := f.ruleId = r.about.id ∧ f.lineNumber = i + 1
  -- first the other rules are left out by their ids, then the other lines by their numbers
  have hrule : (findingsIn s).countP wanted = (r.findings s).countP wanted := by
    refine countP_flatMap_of_key (·.about.id) nodup_catalogue_ids hr ?_
    intro q _ f hf hw
    rw [Rule.findings_eq] at hf
    obtain ⟨x, hx, rfl⟩ := List.mem_map.1 hf
    obtain ⟨_, _, hx⟩ := List.mem_flatMap.1 (List.mem_filter.1 hx).1
    obtain ⟨p, _, rfl⟩ := List.mem_map.1 hx
    exact (of_decide_eq_true hw).1
  show (findingsIn s).countP wanted = _
  rw [hrule, Rule.findings]
  by_cases hs : r.exemption.coversSource s
  · rw [if_pos hs, if_pos (.inl hs)]
    rfl
  have hmem : (line, i) ∈ (lines s).zipIdx := List.mk_mem_zipIdx_iff_getElem?.2 hline
  have hline : ((lines s).zipIdx.flatMap fun (line, i) => r.findingsOnLine (i + 1) line).countP
      wanted = (r.findingsOnLine (i + 1) line).countP wanted := by
    refine countP_flatMap_of_key Prod.snd ?_ hmem ?_
    · rw [List.zipIdx_map_snd]
      exact List.nodup_range'
    · rintro ⟨l, j⟩ _ f hf hw
      change f ∈ r.findingsOnLine (j + 1) l at hf
      rw [Rule.findingsOnLine_eq hs] at hf
      obtain ⟨y, hy, rfl⟩ := List.mem_map.1 hf
      obtain ⟨p, _, rfl⟩ := List.mem_map.1 (List.mem_filter.1 hy).1
      exact Nat.succ.inj (of_decide_eq_true hw).2
  rw [if_neg hs, hline, Rule.findingsOnLine]
  by_cases hl : r.exemption.coversLine line
  · rw [if_pos hl, if_pos (.inr hl)]
    rfl
  · have hall : ∀ p ∈ r.patterns.filter (·.firesOn line),
        (wanted ∘ fun _ => Finding.ofLine r.about (i + 1) line) p := by
      intro p _
      exact decide_eq_true ⟨rfl, rfl⟩
    rw [if_neg hl, if_neg (not_or.2 ⟨hs, hl⟩), List.countP_map, List.countP_eq_length.2 hall,
      ← List.countP_eq_length_filter]
    refine List.countP_congr fun p _ => ?_
    rw [LinePattern.firesOn_iff, decide_eq_true_iff]

/-! ## where they come from -/

/-- every pattern of the catalogue asks for a character that is not white space -/
theorem isSolid_of_mem_catalogue :
    ∀ r ∈ catalogue, ∀ p ∈ r.patterns, p.IsSolid := by decide +kernel

theorem exists_of_mem_findingsIn {s : List Char} {f : Finding} (hf : f ∈ findingsIn s) :
    ∃ r ∈ catalogue, ∃ i line, (lines s)[i]? = some line ∧ trim line ≠ [] ∧
      f = .ofLine r.about (i + 1) line := by
  rw [findingsIn_eq] at hf
  obtain ⟨x, hx, rfl⟩ := List.mem_map.1 hf
  obtain ⟨⟨hr, hp, i, hline, hnumber⟩, -, -, hmatch⟩ := mem_hits_iff.1 hx
  obtain ⟨c, hc, hb⟩ := hmatch.exists_not_isBlank (isSolid_of_mem_catalogue _ hr _ hp)
  exact ⟨x.rule, hr, i, x.line, hline, trim_ne_nil hc hb, by rw [Look.finding, hnumber]⟩

/-- a finding that names a rule comes from a hit of this rule -/
theorem exists_hit_of_mem_findingsIn {r : Rule} (hr : r ∈ catalogue) {s : List Char} {f : Finding}
    (hf : f ∈ findingsIn s) (hid : f.ruleId = r.about.id) :
    ∃ x ∈ hits s, x.rule = r ∧ x.finding = f := by
  rw [findingsIn_eq] at hf
  obtain ⟨x, hx, rfl⟩ := List.mem_map.1 hf
  exact ⟨x, hx, List.inj_on_of_nodup_map nodup_catalogue_ids (mem_hits_iff.1 hx).1.1 hr hid, rfl⟩

/-- what a finding says about its rule -/
def Finding.about (f : Finding) : RuleInfo :=
  ⟨f.ruleId, f.title, f.description, f.severity, f.recommendation, f.references⟩

/-- the finding of an automated rule `r` on one of the lines of `s` -/
structure Finding.IsOnLine (s : List Char) (r : Rule) (f : Finding) : Prop where
  one_le_lineNumber : 1 ≤ f.lineNumber
  lineNumber_le : f.lineNumber ≤ lineCount s
  /-- nothing but white space is taken off the ends of the line -/
  line_eq : ∃ before behind,
    (lines s)[f.lineNumber - 1]? = some (before ++ f.snippet.toList ++ behind) ∧
      ∀ c ∈ before ++ behind, c ∈ whiteSpace
  /-- and all white space is -/
  head_not_mem : ∃ c ∈ f.snippet.toList.head?, c ∉ whiteSpace
  last_not_mem : ∃ c ∈ f.snippet.toList.getLast?, c ∉ whiteSpace
  snippet_ne_empty : f.snippet ≠ ""
  newline_not_mem_snippet : '\n' ∉ f.snippet.toList
  about_eq : f.about = r.about
  automated : f.automated = true
  needsReview : f.needsReview = false

theorem exists_isOnLine {s : List Char} {f : Finding} (hf : f ∈ findingsIn s) :
    ∃ r ∈ catalogue, f.IsOnLine s r := by
  obtain ⟨r, hr, i, line, hline, hne, rfl⟩ := exists_of_mem_findingsIn hf
  obtain ⟨hi, hget⟩ := List.getElem?_eq_some_iff.1 hline
  have hnewline : '\n' ∉ trim line := fun h =>
    newline_not_mem_of_mem_lines (hget ▸ List.getElem_mem hi) ((trim_sublist line).subset h)
  have hsnippet : (Finding.ofLine r.about (i + 1) line).snippet.toList = trim line :=
    String.toList_ofList
  obtain ⟨before, behind, htrim, hbefore, hbehind⟩ := exists_trim_eq line
  have hframed : IsFramed (trim line) := isFramed_trim hne
  simp only [IsFramed, isBlank_iff] at hframed hbefore hbehind
  exact ⟨r, hr,
    { one_le_lineNumber := Nat.le_add_left 1 i
      lineNumber_le := hi
      line_eq := by
        refine ⟨before, behind, ?_, List.forall_mem_append.2 ⟨hbefore, hbehind⟩⟩
        rw [hsnippet, ← htrim]
        exact hline
      head_not_mem := hsnippet ▸ hframed.1
      last_not_mem := hsnippet ▸ hframed.2
      snippet_ne_empty := fun h => hne (by simpa [Finding.ofLine] using congrArg String.toList h)
      newline_not_mem_snippet := by simpa [Finding.ofLine] using hnewline
      about_eq := rfl
      automated := rfl
      needsReview := rfl }⟩

/-- only one rule keeps silent in a whole source -/
theorem eq_of_coversSource {r : Rule} (hr : r ∈ catalogue) {s : List Char}
    (h : r.exemption.coversSource s) : r = .missingAccessControl := by
  simp only [catalogue, List.mem_cons, List.not_mem_nil, or_false] at hr
  rcases hr with rfl | rfl | rfl | rfl | rfl
  · exact absurd h (by simp [Rule.reentrancy, Exemption.coversSource])
  · exact absurd h (by simp [Rule.integerOverflow, Exemption.coversSource])
  · rfl
  · exact absurd h (by simp [Rule.uncheckedCall, Exemption.coversSource])
  · exact absurd h (by simp [Rule.timestampDependence, Exemption.coversSource])

/-- **The findings in a source are its hits**: whichever way the rules are run, there is exactly
one finding for each look that is a hit, in the order of rules, lines and patterns. -/
theorem findings_are_hits (s : List Char) :
    (findingsIn s = (hits s).map Look.finding ∧ scanText s = findingsIn s ∧
      (findingsPerRule s).flatMap (·.2) = findingsIn s) ∧
    (catalogue.map (·.about.id) =
        ["OMEGA-001", "OMEGA-002", "OMEGA-003", "OMEGA-004", "OMEGA-005"] ∧
      ∀ r ∈ catalogue, r.exemption.coversSource s → r = .missingAccessControl) ∧
    (['\n'].intercalate (lines s) = s ∧ ∀ line ∈ lines s, '\n' ∉ line) ∧
    (∀ r ∈ catalogue, ∀ i line, (lines s)[i]? = some line →
      (findingsIn s).countP (fun f => f.ruleId = r.about.id ∧ f.lineNumber = i + 1) =
        if r.exemption.coversSource s ∨ r.exemption.coversLine line then 0
        else r.patterns.countP fun p => p.Matches line) ∧
    ∀ f ∈ findingsIn s, ∃ r ∈ catalogue, f.IsOnLine s r := by
  refine ⟨⟨findingsIn_eq s, scanText_eq_findingsIn s, flatMap_findingsPerRule s⟩,
    ⟨rfl, fun r hr => eq_of_coversSource hr⟩,
    ⟨intercalate_lines s, fun _ => newline_not_mem_of_mem_lines⟩, ?_, ?_⟩
  · intro r hr i line hline
    exact countP_findingsIn hr hline
  · intro f hf
    exact exists_isOnLine hf

/-- two patterns of one rule match on the second line, and there are two findings -/
theorem findings_are_hits_twice_on_a_line :
    let s := "\n  external_call(a.call (b));".toList
    Rule.reentrancy ∈ catalogue ∧
      (lines s)[1]? = some "  external_call(a.call (b));".toList ∧
      (findingsIn s).countP (fun f => f.ruleId = "OMEGA-001" ∧ f.lineNumber = 2) = 2 := by
  intro s
  have hr : Rule.reentrancy ∈ catalogue := List.mem_cons_self
  have hline : (lines s)[1]? = some "  external_call(a.call (b));".toList := by decide +kernel
  refine ⟨hr, hline, ((findings_are_hits s).2.2.2.1 _ hr 1 _ hline).trans ?_⟩
  decide +kernel

end ContractAudit
