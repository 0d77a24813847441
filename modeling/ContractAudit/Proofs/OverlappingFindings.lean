import ContractAudit.Analysis.Complexity
import ContractAudit.Proofs.PatternLanguages
import ContractAudit.Proofs.SilencedSources

/-!
# Findings that come together

The rules are written apart from each other, each with its own patterns, its own way with upper and
lower case and its own exemptions, and so are the counts that make up the complexity of a source.
Still some of what they find overlaps: a call is a matter of two rules and of one count, a time
stamp of a block is also a time stamp, and what excuses one line from one rule excuses the whole
source from another.

* `LinePattern.MatchesSmall p line`: the pattern reads a factor of the line without capitals.
* `mem_literal_iff`: a word as it is written is the word in either case without capitals.
* `Rule.matches_memberCall_iff`: so members are called as they are written where they are called in
  either case without capitals.
* `Rule.matches_anyCase_of_append`: a word is found only where its end is found.
* `linesFoundBy id s`: the lines on which a rule finds something.

The main statement is `overlapping_findings`.
-/

namespace ContractAudit

open Text LinePattern Computability

/-! ## words without capitals -/

/-- a character that folds to a letter without an odd form is this letter or its capital -/
theorem FoldsTo.eq_of_not_isUpper {c a : Char} (h : FoldsTo c a) (ha : oddForm a = a)
    (hc : ¬ c.isUpper) : c = a := by
  rcases h with h | ⟨⟨hlow, hhigh⟩, hcapital⟩ | ⟨rfl, -⟩ | ⟨rfl, -⟩
  · exact h
  · have hlow : 97 ≤ a.toNat := hlow
    have hhigh : a.toNat ≤ 122 := hhigh
    have hfirst : 65 ≤ c.toNat := by omega
    have hlast : c.toNat ≤ 90 := by omega
    exact absurd (decide_eq_true ⟨hfirst, hlast⟩) hc
  · exact absurd ha (by decide)
  · exact absurd ha (by decide)

theorem not_isUpper_of_isFolded {a : Char} (ha : isFolded a) : ¬ a.isUpper := by
  intro hupper
  have hcapital : 'A' ≤ a ∧ a ≤ 'Z' := of_decide_eq_true hupper
  simp [isFolded, hcapital] at ha

/-- A word as it is written is the word in either case without capitals, unless one of its letters
has an odd form. -/
theorem mem_literal_iff {s : String} (hs : s.toList.all isFolded)
    (hodd : s.toList.all fun a => oddForm a == a) {w : List Char} :
    w ∈ literal s ↔ w ∈ caseless s ∧ ∀ c ∈ w, ¬ c.isUpper := by
  constructor
  · rintro rfl
    exact ⟨List.forall₂_same.2 fun a _ => .inl rfl,
      fun c hc => not_isUpper_of_isFolded (List.all_eq_true.1 hs c hc)⟩
  · rintro ⟨hw, hsmall⟩
    show w = s.toList
    change List.Forall₂ FoldsTo w s.toList at hw
    generalize s.toList = cs at hw hodd
    induction hw with
    | nil => rfl
    | cons h _ ih =>
      obtain ⟨hc, hsmall⟩ := List.forall_mem_cons.1 hsmall
      obtain ⟨ha, hodd⟩ := Bool.and_eq_true_iff.1 hodd
      rw [h.eq_of_not_isUpper (beq_iff_eq.1 ha) hc, ih hsmall hodd]

/-! ## patterns that overlap -/

section
variable {line : List Char}

namespace LinePattern

/-- the pattern reads a factor of the line in which no letter is a capital -/
def MatchesSmall (p : LinePattern) (line : List Char) : Prop :=
  ∃ q ∈ p.branches, ∃ w, w <:+: line ∧ Reads q w ∧ ∀ c ∈ w, ¬ c.isUpper

theorem MatchesSmall.matches {p : LinePattern} (h : p.MatchesSmall line) : p.Matches line := by
  obtain ⟨q, hq, w, hw, hread, -⟩ := h
  exact ⟨q, hq, w, hw, hread⟩

theorem matches_seq_iff {ps : List Piece} :
    (seq ps).Matches line ↔ ∃ w ∈ Piece.language ps, w <:+: line :=
  firesOn_iff.symm.trans (hasLanguage_seq ps line)

end LinePattern

namespace Rule

/-- what stands behind the name where a member is called -/
def openings : Language Char := space∗ * literal "("

theorem not_isUpper_of_mem_openings {v : List Char} (hv : v ∈ openings) :
    ∀ c ∈ v, ¬ c.isUpper := by
  obtain ⟨gap, hgap, _, rfl, rfl⟩ := hv
  intro c hc
  rcases List.mem_append.1 hc with hc | hc
  · have hsmall : whiteSpace.all (!·.isUpper) := by decide
    simpa using List.all_eq_true.1 hsmall c (mem_kstar_oneChar.1 hgap c hc)
  · obtain rfl : c = '(' := by simpa using hc
    decide

theorem language_memberCall (name : String) :
    Piece.language (exact name ++ blanks ++ exact "(") = literal name * openings := by
  rw [Piece.language_append, Piece.language_append, language_exact, language_exact,
    language_blanks, mul_assoc, openings]

theorem language_memberCallAnyCase {name : String} (hname : name.toList.all isFolded) :
    Piece.language (anyCase name ++ blanks ++ exact "(") = caseless name * openings := by
  rw [Piece.language_append, Piece.language_append, language_anyCase hname, language_exact,
    language_blanks, mul_assoc, openings]

/-- a member is called as it is written where it is called in either case without capitals -/
theorem matches_memberCall_iff {name : String} (hname : name.toList.all isFolded)
    (hodd : name.toList.all fun a => oddForm a == a) :
    (memberCall name).Matches line ↔ (memberCallAnyCase name).MatchesSmall line := by
  have hreads (w : List Char) : Reads (exact name ++ blanks ++ exact "(") w ↔
      Reads (anyCase name ++ blanks ++ exact "(") w ∧ ∀ c ∈ w, ¬ c.isUpper := by
    show w ∈ Piece.language _ ↔ w ∈ Piece.language _ ∧ _
    rw [language_memberCall, language_memberCallAnyCase hname]
    constructor
    · rintro ⟨u, hu, v, hv, rfl⟩
      obtain ⟨hu, hsmall⟩ := (mem_literal_iff hname hodd).1 hu
      exact ⟨⟨u, hu, v, hv, rfl⟩,
        List.forall_mem_append.2 ⟨hsmall, not_isUpper_of_mem_openings hv⟩⟩
    · rintro ⟨⟨u, hu, v, hv, rfl⟩, hsmall⟩
      have hsmall := (List.forall_mem_append.1 hsmall).1
      exact ⟨u, (mem_literal_iff hname hodd).2 ⟨hu, hsmall⟩, v, hv, rfl⟩
  simp only [Matches, ReadsFactor, MatchesSmall, memberCall, memberCallAnyCase, seq,
    List.mem_singleton, exists_eq_left, hreads]

theorem matches_call_iff :
    (memberCall ".call").Matches line ↔ (memberCallAnyCase ".call").MatchesSmall line :=
  matches_memberCall_iff (by decide) (by decide)

theorem infix_of_matches_memberCall {name : String} (h : (memberCall name).Matches line) :
    name.toList <:+: line := by
  obtain ⟨w, hw, hline⟩ := matches_seq_iff.1 h
  rw [language_memberCall] at hw
  obtain ⟨_, rfl, v, -, rfl⟩ := hw
  exact (List.prefix_append name.toList v).isInfix.trans hline

/-- whichever member is called without a check, its name ends with the same word -/
theorem infix_of_mem_patterns_uncheckedCall {p : LinePattern} (hp : p ∈ uncheckedCall.patterns)
    (h : p.Matches line) : "call".toList <:+: line := by
  have hname : ∃ name, p = memberCall name ∧ "call".toList <:+: name.toList := by
    simp only [uncheckedCall, List.mem_cons, List.not_mem_nil, or_false] at hp
    rcases hp with rfl | rfl | rfl <;> exact ⟨_, rfl, by decide⟩
  obtain ⟨name, rfl, hcall⟩ := hname
  exact hcall.trans (infix_of_matches_memberCall h)

/-- a word is found where a longer one that ends with it is found -/
theorem matches_anyCase_of_append {a b : String} (h : (seq (anyCase (a ++ b))).Matches line) :
    (seq (anyCase b)).Matches line := by
  have hsplit : anyCase (a ++ b) = anyCase a ++ anyCase b := by
    rw [anyCase, String.toList_append, List.map_append]
    rfl
  obtain ⟨w, hw, hline⟩ := matches_seq_iff.1 h
  rw [hsplit, Piece.language_append] at hw
  obtain ⟨u, -, v, hv, rfl⟩ := hw
  exact matches_seq_iff.2 ⟨v, hv, (List.suffix_append u v).isInfix.trans hline⟩

theorem matches_timestamp_of_matches_blockTimestamp
    (h : (seq (anyCase "block.timestamp")).Matches line) :
    (seq (anyCase "timestamp")).Matches line :=
  matches_anyCase_of_append (a := "block.") h

end Rule

end

/-! ## hits that come together -/

section
variable {s line : List Char} {x : Look}

theorem Exemption.not_covers_never (s line : List Char) :
    ¬ (never.coversSource s ∨ never.coversLine line) :=
  not_or.2 ⟨Bool.false_ne_true, Bool.false_ne_true⟩

theorem coversLine_uncheckedCall_iff : Rule.uncheckedCall.exemption.coversLine line ↔
    ∃ w ∈ ["require", "assert", "if"], w.toList <:+: line := by
  show hasAnyFactor (words ["require", "assert", "if"]) line ↔ _
  rw [hasAnyFactor_iff]
  simp only [words, List.mem_map, exists_exists_and_eq_and]

/-- a rule that does not keep silent has a hit wherever one of its patterns matches -/
theorem mk_mem_hits {i : Nat} (hline : (lines s)[i]? = some line) {r : Rule} (hr : r ∈ catalogue)
    (hsilent : ¬ (r.exemption.coversSource s ∨ r.exemption.coversLine line)) {p : LinePattern}
    (hp : p ∈ r.patterns) (h : p.Matches line) : ⟨r, i + 1, line, p⟩ ∈ hits s :=
  mem_hits_iff.2 ⟨⟨hr, hp, i, hline, rfl⟩, (not_or.1 hsilent).1, (not_or.1 hsilent).2, h⟩

theorem exists_reentrancy_hit (hx : x ∈ hits s) (hpattern : x.pattern = Rule.memberCall ".call") :
    ∃ y ∈ hits s, y.rule = .reentrancy ∧ y.pattern = Rule.memberCallAnyCase ".call" ∧
      y.finding.lineNumber = x.finding.lineNumber ∧ y.finding.snippet = x.finding.snippet := by
  obtain ⟨⟨-, -, i, hline, hnumber⟩, -, -, hmatch⟩ := mem_hits_iff.1 hx
  rw [hpattern, Rule.matches_call_iff] at hmatch
  have hr : Rule.reentrancy ∈ catalogue := List.mem_cons_self
  have hy := mk_mem_hits hline hr (Exemption.not_covers_never _ _) List.mem_cons_self hmatch.matches
  exact ⟨_, hy, rfl, rfl, hnumber.symm, rfl⟩

theorem exists_uncheckedCall_hit {i : Nat} (hline : (lines s)[i]? = some line)
    (hmatch : (Rule.memberCallAnyCase ".call").MatchesSmall line)
    (hmarkers : ∀ w ∈ ["require", "assert", "if"], ¬ w.toList <:+: line) :
    ∃ x ∈ hits s, x.rule = .uncheckedCall ∧ x.pattern = Rule.memberCall ".call" ∧
      x.finding.ruleId = "OMEGA-004" ∧ x.finding.lineNumber = i + 1 := by
  have hr : Rule.uncheckedCall ∈ catalogue := by simp [catalogue]
  have hsilent : ¬ (Rule.uncheckedCall.exemption.coversSource s ∨
      Rule.uncheckedCall.exemption.coversLine line) := by
    refine not_or.2 ⟨Bool.false_ne_true, fun h => ?_⟩
    obtain ⟨w, hw, hmarker⟩ := coversLine_uncheckedCall_iff.1 h
    exact hmarkers w hw hmarker
  have hx := mk_mem_hits hline hr hsilent List.mem_cons_self (Rule.matches_call_iff.2 hmatch)
  exact ⟨_, hx, rfl, rfl, rfl, rfl⟩

theorem exists_timestamp_hit (hx : x ∈ hits s)
    (hpattern : x.pattern = seq (anyCase "block.timestamp")) :
    (∃ y ∈ hits s, y.rule = .timestampDependence ∧ y.pattern = seq (anyCase "timestamp") ∧
      y.finding.lineNumber = x.finding.lineNumber) ∧
    2 ≤ (findingsIn s).countP fun f =>
      f.ruleId = "OMEGA-005" ∧ f.lineNumber = x.finding.lineNumber := by
  obtain ⟨⟨-, -, i, hline, hnumber⟩, -, -, hmatch⟩ := mem_hits_iff.1 hx
  rw [hpattern] at hmatch
  have hword := Rule.matches_timestamp_of_matches_blockTimestamp hmatch
  have hr : Rule.timestampDependence ∈ catalogue := by simp [catalogue]
  have hsilent : ¬ (Rule.timestampDependence.exemption.coversSource s ∨
      Rule.timestampDependence.exemption.coversLine x.line) := Exemption.not_covers_never _ _
  constructor
  · have hp : seq (anyCase "timestamp") ∈ Rule.timestampDependence.patterns := by
      simp [Rule.timestampDependence]
    exact ⟨_, mk_mem_hits hline hr hsilent hp hword, rfl, rfl, hnumber.symm⟩
  · have hcount := countP_findingsIn hr hline
    rw [if_neg hsilent, ← hnumber] at hcount
    -- the first and the last of the three patterns match
    refine Nat.le_trans ?_ (Nat.le_of_eq hcount.symm)
    simp only [Rule.timestampDependence, List.countP_cons, hmatch, hword, decide_true, if_true]
    omega

theorem ruleId_ne_of_require (hline : line ∈ lines s) (hrequire : "require".toList <:+: line) :
    ∀ f ∈ findingsIn s, f.ruleId ≠ "OMEGA-003" := by
  intro f hf hid
  have hr : Rule.missingAccessControl ∈ catalogue := by simp [catalogue]
  obtain ⟨x, hx, hrule, -⟩ := exists_hit_of_mem_findingsIn hr hf hid
  have hword : IsAccessControlWord "require".toList := ⟨"require", by decide, rfl⟩
  have hnames : NamesAccessControl s :=
    namesAccessControl_iff_exists_line.2 ⟨line, hline, _, hrequire, hword⟩
  exact (hrule ▸ (mem_hits_iff.1 hx).2.1) (coversSource_iff_namesAccessControl.2 hnames)

/-! ## lines that are counted -/

/-- the numbers of the lines on which the rule with this id finds something -/
def linesFoundBy (id : String) (s : List Char) : Finset Nat :=
  (((findingsIn s).filter (·.ruleId = id)).map (·.lineNumber)).toFinset

/-- the numbers of the lines that count as external calls -/
def externalCallLines (s : List Char) : List Nat :=
  ((lines s).zipIdx.filter fun x =>
    hasAnyFactor (words ["call", "delegatecall", "transfer"]) (trim x.1)).map (·.2 + 1)

theorem length_externalCallLines (s : List Char) :
    (externalCallLines s).length = (ComplexityFactors.ofSource s).externalCalls := by
  show _ = ((lines s).map trim).countP _
  rw [externalCallLines, List.length_map, ← List.countP_eq_length_filter, List.countP_map]
  conv_rhs => rw [← List.zipIdx_map_fst 0 (lines s), List.countP_map]
  rfl

theorem linesFoundBy_uncheckedCall_subset :
    linesFoundBy "OMEGA-004" s ⊆ (externalCallLines s).toFinset := by
  intro number hnumber
  obtain ⟨f, hf, rfl⟩ := List.mem_map.1 (List.mem_toFinset.1 hnumber)
  obtain ⟨hf, hid⟩ := List.mem_filter.1 hf
  have hr : Rule.uncheckedCall ∈ catalogue := by simp [catalogue]
  obtain ⟨x, hx, hrule, rfl⟩ := exists_hit_of_mem_findingsIn hr hf (of_decide_eq_true hid)
  obtain ⟨⟨-, hp, i, hline, hi⟩, -, -, hmatch⟩ := mem_hits_iff.1 hx
  have hcall := Rule.infix_of_mem_patterns_uncheckedCall (hrule ▸ hp) hmatch
  have hframed : IsFramed "call".toList := by decide
  have hword : hasAnyFactor (words ["call", "delegatecall", "transfer"]) (trim x.line) :=
    hasAnyFactor_iff.2 ⟨_, List.mem_cons_self, (hframed.infix_trim_iff x.line).2 hcall⟩
  refine List.mem_toFinset.2 (List.mem_map.2 ⟨(x.line, i), ?_, hi.symm⟩)
  exact List.mem_filter.2 ⟨List.mk_mem_zipIdx_iff_getElem?.2 hline, hword⟩

theorem card_linesFoundBy_uncheckedCall_le (s : List Char) :
    (linesFoundBy "OMEGA-004" s).card ≤ (ComplexityFactors.ofSource s).externalCalls :=
  calc (linesFoundBy "OMEGA-004" s).card
      ≤ (externalCallLines s).toFinset.card :=
        Finset.card_le_card linesFoundBy_uncheckedCall_subset
    _ ≤ (externalCallLines s).length := List.toFinset_card_le _
    _ = (ComplexityFactors.ofSource s).externalCalls := length_externalCallLines s

end

/-- **Findings that come together.**  What is found of a call without a check is also found of
reentrancy, on the same line with the same snippet; conversely, where the latter is found in small
letters and the line has none of the words that excuse it, so is the former.  A time stamp of a
block is found a second time as a time stamp.  No more lines have calls without a check than count
as external calls.  Where a line is excused because something is required there, no function of the
source is found without access control. -/
theorem overlapping_findings (s : List Char) :
    findingsIn s = (hits s).map Look.finding ∧
    (∀ x ∈ hits s, x.rule = .uncheckedCall → x.pattern = Rule.memberCall ".call" →
      ∃ y ∈ hits s, y.rule = .reentrancy ∧ y.pattern = Rule.memberCallAnyCase ".call" ∧
        y.finding.lineNumber = x.finding.lineNumber ∧ y.finding.snippet = x.finding.snippet) ∧
    (∀ i line, (lines s)[i]? = some line → (Rule.memberCallAnyCase ".call").MatchesSmall line →
      (∀ w ∈ ["require", "assert", "if"], ¬ w.toList <:+: line) →
      ∃ x ∈ hits s, x.rule = .uncheckedCall ∧ x.pattern = Rule.memberCall ".call" ∧
        x.finding.ruleId = "OMEGA-004" ∧ x.finding.lineNumber = i + 1) ∧
    (∀ x ∈ hits s, x.rule = .timestampDependence → x.pattern = seq (anyCase "block.timestamp") →
      (∃ y ∈ hits s, y.rule = .timestampDependence ∧ y.pattern = seq (anyCase "timestamp") ∧
        y.finding.lineNumber = x.finding.lineNumber) ∧
      2 ≤ (findingsIn s).countP fun f =>
        f.ruleId = "OMEGA-005" ∧ f.lineNumber = x.finding.lineNumber) ∧
    (linesFoundBy "OMEGA-004" s).card ≤ (ComplexityFactors.ofSource s).externalCalls ∧
    ∀ line ∈ lines s, "require".toList <:+: line →
      Rule.uncheckedCall.exemption.coversLine line ∧
        ∀ f ∈ findingsIn s, f.ruleId ≠ "OMEGA-003" := by
  refine ⟨findingsIn_eq s, fun x hx _ hpattern => exists_reentrancy_hit hx hpattern,
    fun i line hline hmatch hmarkers => exists_uncheckedCall_hit hline hmatch hmarkers,
    fun x hx _ hpattern => exists_timestamp_hit hx hpattern,
    card_linesFoundBy_uncheckedCall_le s, fun line hline hrequire => ⟨?_, ?_⟩⟩
  · exact coversLine_uncheckedCall_iff.2 ⟨"require", List.mem_cons_self, hrequire⟩
  · exact ruleId_ne_of_require hline hrequire

/-- a call that nobody checks, a time stamp of a block with an odd letter, and a guard that stands
behind a function -/
theorem overlapping_findings_of_three_lines :
    let s := "  token.call (amount);\nBlock.Time\u017ftamp\nfunction f() public { require(b); }".toList
    let call : Look :=
      ⟨.uncheckedCall, 1, "  token.call (amount);".toList, Rule.memberCall ".call"⟩
    let stamp : Look :=
      ⟨.timestampDependence, 2, "Block.Time\u017ftamp".toList, seq (anyCase "block.timestamp")⟩
    let guarded := "function f() public { require(b); }".toList
    call ∈ hits s ∧ stamp ∈ hits s ∧ guarded ∈ lines s ∧ "require".toList <:+: guarded ∧
      (∃ y ∈ hits s, y.rule = .reentrancy ∧ y.finding.lineNumber = 1 ∧
        y.finding.snippet = "token.call (amount);") ∧
      (∃ x ∈ hits s, x.rule = .uncheckedCall ∧ x.finding.lineNumber = 1) ∧
      2 ≤ (findingsIn s).countP (fun f => f.ruleId = "OMEGA-005" ∧ f.lineNumber = 2) ∧
      (linesFoundBy "OMEGA-004" s).card = 1 ∧ (ComplexityFactors.ofSource s).externalCalls = 1 ∧
      ∀ f ∈ findingsIn s, f.ruleId ≠ "OMEGA-003" := by
  intro s call stamp guarded
  obtain ⟨-, hreentrancy, hunchecked, htimestamp, -, hguard⟩ := overlapping_findings s
  have hline : (lines s)[0]? = some call.line := by decide +kernel
  have hcall : call ∈ hits s :=
    mem_hits_iff.2 ⟨⟨by decide +kernel, by decide +kernel, 0, hline, rfl⟩, by decide +kernel⟩
  have hstamp : stamp ∈ hits s :=
    mem_hits_iff.2 ⟨⟨by decide +kernel, by decide +kernel, 1, by decide +kernel, rfl⟩,
      by decide +kernel⟩
  have hguarded : guarded ∈ lines s := by decide +kernel
  have hrequire : "require".toList <:+: guarded := by decide +kernel
  have hsmall : (Rule.memberCallAnyCase ".call").MatchesSmall call.line :=
    Rule.matches_call_iff.1 (by decide +kernel)
  obtain ⟨y, hy, hrule, -, hnumber, hsnippet⟩ := hreentrancy call hcall rfl rfl
  obtain ⟨x, hx, hrule', -, -, hnumber'⟩ := hunchecked 0 _ hline hsmall (by decide +kernel)
  have hcount := (htimestamp stamp hstamp rfl rfl).2
  refine ⟨hcall, hstamp, hguarded, hrequire, ⟨y, hy, hrule, hnumber, hsnippet.trans ?_⟩,
    ⟨x, hx, hrule', hnumber'⟩, hcount, ?_, ?_, (hguard guarded hguarded hrequire).2⟩
  · decide +kernel
  · decide +kernel
  · decide +kernel

end ContractAudit
