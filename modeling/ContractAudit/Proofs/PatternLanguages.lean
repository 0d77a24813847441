import Mathlib
import ContractAudit.Proofs.TextFactors
import ContractAudit.Rule.Catalogue

/-!
# The languages of the patterns

What the patterns of the catalogue read, said with the operations on languages: one language after
another, a choice, and repetition.

* `FoldsTo`: equality up to simple case folding.
* `literal`, `caseless`, `space`, `wordChar`, `anyBut`: the languages that patterns are made of.
* `languages`: for each rule, the languages of its patterns.
* `Piece.language_append`, `LinePattern.language_exact`, `LinePattern.language_anyCase`: what
  sequences of pieces read.
* `LinePattern.firesOn_seq_iff`: what a pattern without a choice fires on.

The main statement is `pattern_languages`.
-/

namespace ContractAudit

open Text

/-! ## characters -/

/-- `c` is the character `a` up to simple case folding: it is `a` itself, or `a` is a small letter
and `c` its capital, the long s or the Kelvin sign -/
def FoldsTo (c a : Char) : Prop :=
  c = a ∨ ('a' ≤ a ∧ a ≤ 'z') ∧ c.toNat + 32 = a.toNat ∨ a = 's' ∧ c = '\u017f' ∨
    a = 'k' ∧ c = '\u212a'

/-- a character that others fold to: it is in ASCII and no capital letter -/
def isFolded (a : Char) : Bool := a.toNat < 0x80 && !('A' ≤ a && a ≤ 'Z')

theorem foldCase_eq_iff {c a : Char} (ha : isFolded a) : foldCase c = a ↔ FoldsTo c a := by
  have heq (b d : Char) : b = d ↔ b.toNat = d.toNat := Char.toNat_inj.symm
  have hle (b d : Char) : b ≤ d ↔ b.toNat ≤ d.toNat := UInt32.le_iff_toNat_le
  unfold foldCase FoldsTo
  simp only [isFolded, Bool.and_eq_true, Bool.not_eq_true', Bool.and_eq_false_iff,
    decide_eq_true_eq, decide_eq_false_iff_not, hle, Char.reduceToNat] at ha
  split_ifs with hcapital hs hk
  · simp only [heq, hle, Char.reduceToNat] at hcapital ⊢
    rw [Char.toNat_ofNat, if_pos (.inl (by omega))]
    omega
  · simp only [heq, hle, Char.reduceToNat] at hs ⊢
    omega
  · simp only [heq, hle, Char.reduceToNat] at hk ⊢
    omega
  · simp only [heq, hle, Char.reduceToNat] at hcapital hs hk ⊢
    omega

/-! ## languages of characters and words -/

/-- the words of one character that has the property -/
def oneChar (P : Char → Prop) : Language Char := {w | ∃ c, P c ∧ w = [c]}

/-- a word exactly as it is written -/
def literal (s : String) : Language Char := {w | w = s.toList}

/-- a word up to simple case folding -/
def caseless (s : String) : Language Char := {w | List.Forall₂ FoldsTo w s.toList}

/-- a character of white space -/
def space : Language Char := oneChar (· ∈ whiteSpace)

/-- a character that can stand in a word -/
def wordChar : Language Char := oneChar fun c => isWordChar c

/-- any character but this one -/
def anyBut (a : Char) : Language Char := oneChar (· ≠ a)

open Computability in
theorem mem_kstar_oneChar {P : Char → Prop} {w : List Char} :
    w ∈ (oneChar P)∗ ↔ ∀ c ∈ w, P c := by
  rw [Language.mem_kstar]
  constructor
  · rintro ⟨l, rfl, hl⟩ c hc
    obtain ⟨v, hv, hc⟩ := List.mem_flatten.1 hc
    obtain ⟨d, hd, rfl⟩ := hl v hv
    obtain rfl := List.mem_singleton.1 hc
    exact hd
  · intro h
    refine ⟨w.map ([·]), ?_, fun v hv => ?_⟩
    · induction w with
      | nil => rfl
      | cons c w ih => simp [← ih fun d hd => h d (List.mem_cons_of_mem c hd)]
    · obtain ⟨c, hc, rfl⟩ := List.mem_map.1 hv
      exact ⟨c, h c hc, rfl⟩

open Computability in
/-- a run that is not empty -/
theorem mem_oneChar_mul_kstar {P : Char → Prop} {w : List Char} :
    w ∈ oneChar P * (oneChar P)∗ ↔ w ≠ [] ∧ ∀ c ∈ w, P c := by
  rw [Language.mem_mul]
  constructor
  · rintro ⟨_, ⟨c, hc, rfl⟩, v, hv, rfl⟩
    exact ⟨List.cons_ne_nil _ _, List.forall_mem_cons.2 ⟨hc, mem_kstar_oneChar.1 hv⟩⟩
  · rintro ⟨hne, h⟩
    obtain ⟨c, v, rfl⟩ := List.exists_cons_of_ne_nil hne
    obtain ⟨hc, hv⟩ := List.forall_mem_cons.1 h
    exact ⟨[c], ⟨c, hc, rfl⟩, v, mem_kstar_oneChar.2 hv, rfl⟩

/-! ## what sequences of pieces read -/

namespace Piece

open Computability

/-- the words that a sequence reads -/
def language (ps : List Piece) : Language Char := {w | Reads ps w}

theorem language_nil : language [] = 1 := Set.ext fun _ => reads_nil_iff

theorem language_one (k : CharClass) (ps : List Piece) :
    language (.one k :: ps) = oneChar (k.admits ·) * language ps := by
  ext w
  rw [Language.mem_mul]
  constructor
  · intro h
    cases h with
    | one hk h => exact ⟨[_], ⟨_, hk, rfl⟩, _, h, rfl⟩
  · rintro ⟨_, ⟨c, hk, rfl⟩, v, h, rfl⟩
    exact .one hk h

theorem language_many (k : CharClass) (ps : List Piece) :
    language (.many k :: ps) = (oneChar (k.admits ·))∗ * language ps := by
  ext w
  rw [Language.mem_mul]
  constructor
  · intro h
    induction w with
    | nil =>
      cases h with
      | stop h => exact ⟨[], mem_kstar_oneChar.2 fun _ h => (nomatch h), [], h, rfl⟩
    | cons c w ih =>
      cases h with
      | stop h => exact ⟨[], mem_kstar_oneChar.2 fun _ h => (nomatch h), _, h, rfl⟩
      | more hk h =>
        obtain ⟨u, hu, v, hv, rfl⟩ := ih h
        exact ⟨c :: u, mem_kstar_oneChar.2 (List.forall_mem_cons.2 ⟨hk, mem_kstar_oneChar.1 hu⟩),
          v, hv, rfl⟩
  · rintro ⟨u, hu, v, hv, rfl⟩
    have hrun : ∀ c ∈ u, k.admits c := mem_kstar_oneChar.1 hu
    clear hu
    induction u with
    | nil => exact .stop hv
    | cons c u ih =>
      obtain ⟨hc, hrun⟩ := List.forall_mem_cons.1 hrun
      exact .more hc (ih hrun)

/-- a sequence after another one reads what the one reads and then what the other one does -/
theorem language_append (ps qs : List Piece) :
    language (ps ++ qs) = language ps * language qs := by
  induction ps with
  | nil => rw [List.nil_append, language_nil, one_mul]
  | cons p ps ih =>
    cases p with
    | one k => rw [List.cons_append, language_one, language_one, ih, mul_assoc]
    | many k => rw [List.cons_append, language_many, language_many, ih, mul_assoc]

end Piece

namespace LinePattern

open Piece Computability

theorem oneChar_blank : oneChar (CharClass.blank.admits ·) = space :=
  congrArg oneChar (funext fun _ => propext isBlank_iff)

theorem oneChar_except (a : Char) : oneChar ((CharClass.except a).admits ·) = anyBut a :=
  congrArg oneChar (funext fun _ => propext bne_iff_ne)

theorem language_exactly (a : Char) :
    language [.one (.exactly a)] = literal (String.singleton a) := by
  rw [language_one, language_nil, mul_one]
  ext w
  constructor
  · rintro ⟨c, hc, rfl⟩
    obtain rfl : c = a := beq_iff_eq.1 hc
    exact (String.toList_singleton c).symm
  · intro h
    exact ⟨a, beq_self_eq_true a, h.trans (String.toList_singleton a)⟩

theorem language_exact (s : String) : language (exact s) = literal s := by
  ext w
  show Reads (s.toList.map fun a => .one (.exactly a)) w ↔ w = s.toList
  generalize s.toList = cs
  induction cs generalizing w with
  | nil => exact reads_nil_iff
  | cons a cs ih =>
    constructor
    · intro h
      cases h with
      | one hc h => exact List.cons_eq_cons.2 ⟨beq_iff_eq.1 hc, (ih _).1 h⟩
    · rintro rfl
      exact .one (beq_self_eq_true a) ((ih _).2 rfl)

theorem language_anyCase {s : String} (hs : s.toList.all isFolded) :
    language (anyCase s) = caseless s := by
  ext w
  show Reads (s.toList.map fun a => .one (.folded a)) w ↔ List.Forall₂ FoldsTo w s.toList
  have hfold {c a : Char} (ha : isFolded a) :
      (CharClass.folded a).admits c ↔ FoldsTo c a := beq_iff_eq.trans (foldCase_eq_iff ha)
  generalize s.toList = cs at hs
  induction cs generalizing w with
  | nil => rw [List.forall₂_nil_right_iff]; exact reads_nil_iff
  | cons a cs ih =>
    obtain ⟨ha, hs⟩ := Bool.and_eq_true_iff.1 hs
    constructor
    · intro h
      cases h with
      | one hc h => exact .cons ((hfold ha).1 hc) ((ih _ hs).1 h)
    · intro h
      cases h with
      | cons hc h => exact .one ((hfold ha).2 hc) ((ih _ hs).2 h)

theorem language_blanks : language blanks = space∗ := by
  rw [blanks, language_many, language_nil, mul_one, oneChar_blank]

/-- the pattern fires on the lines with a factor in the language -/
def HasLanguage (p : LinePattern) (L : Language Char) : Prop :=
  ∀ line, p.firesOn line ↔ ∃ w ∈ L, w <:+: line

/-- what a choice reads is what one of its branches reads -/
theorem hasLanguage_iff {p : LinePattern} {L : Language Char}
    (h : ∀ w, w ∈ L ↔ ∃ ps ∈ p.branches, w ∈ language ps) : p.HasLanguage L := by
  intro line
  rw [firesOn_iff]
  constructor
  · rintro ⟨ps, hps, w, hw, hread⟩
    exact ⟨w, (h w).2 ⟨ps, hps, hread⟩, hw⟩
  · rintro ⟨w, hL, hw⟩
    obtain ⟨ps, hps, hread⟩ := (h w).1 hL
    exact ⟨ps, hps, w, hw, hread⟩

theorem hasLanguage_seq (ps : List Piece) : (seq ps).HasLanguage (language ps) :=
  hasLanguage_iff fun _ => ⟨fun h => ⟨ps, List.mem_singleton_self ps, h⟩, fun ⟨_, hps, h⟩ =>
    List.mem_singleton.1 hps ▸ h⟩

theorem hasLanguage_anyCase {s : String} (hs : s.toList.all isFolded) :
    (seq (anyCase s)).HasLanguage (caseless s) :=
  language_anyCase hs ▸ hasLanguage_seq _

end LinePattern

/-! ## the catalogue -/

open Computability LinePattern Piece

namespace Rule

theorem hasLanguage_memberCallAnyCase {name : String} (hname : name.toList.all isFolded) :
    (memberCallAnyCase name).HasLanguage (caseless name * space∗ * literal "(") := by
  rw [← language_anyCase hname, ← language_blanks, ← language_exact, ← language_append,
    ← language_append]
  exact hasLanguage_seq _

theorem hasLanguage_memberCall (name : String) :
    (memberCall name).HasLanguage (literal name * space∗ * literal "(") := by
  rw [← language_exact name, ← language_blanks, ← language_exact, ← language_append,
    ← language_append]
  exact hasLanguage_seq _

theorem hasLanguage_compoundAssignment (op : Char) :
    (compoundAssignment op).HasLanguage (literal (String.singleton op) * space∗ * literal "=") := by
  rw [← language_exactly, ← language_blanks, ← language_exact, ← language_append,
    ← language_append]
  exact hasLanguage_seq _

theorem hasLanguage_binaryOperation (op : Char) :
    (binaryOperation op).HasLanguage (literal (String.singleton op) * space∗ * anyBut '=') := by
  rw [← language_exactly, ← language_blanks, ← oneChar_except, ← mul_one (oneChar _),
    ← language_nil, ← language_one, ← language_append, ← language_append]
  exact hasLanguage_seq _

end Rule

/-- the head of a function up to what comes after its parameters -/
def functionHeads : Language Char :=
  caseless "function" * (space * space∗) * (wordChar * wordChar∗) * space∗ * literal "(" *
    (anyBut ')')∗ * literal ")" * space∗

/-- the languages of the patterns, rule by rule -/
def languages : List (String × List (Language Char)) :=
  [("OMEGA-001",
    [caseless ".call" * space∗ * literal "(", caseless ".transfer" * space∗ * literal "(",
     caseless ".send" * space∗ * literal "(", caseless "external_call", caseless "reentrant"]),
   ("OMEGA-002",
    [literal "+" * space∗ * literal "=", literal "-" * space∗ * literal "=",
     literal "*" * space∗ * literal "=", literal "/" * space∗ * literal "=",
     literal "+" * space∗ * anyBut '=', literal "-" * space∗ * anyBut '=',
     literal "*" * space∗ * anyBut '=', literal "/" * space∗ * anyBut '=']),
   ("OMEGA-003",
    [functionHeads * (caseless "public" + caseless "external"),
     functionHeads * caseless "returns"]),
   ("OMEGA-004",
    [literal ".call" * space∗ * literal "(", literal ".delegatecall" * space∗ * literal "(",
     literal ".staticcall" * space∗ * literal "("]),
   ("OMEGA-005", [caseless "block.timestamp", caseless "now", caseless "timestamp"])]

theorem language_functionHead : language Rule.functionHead = functionHeads := by
  have hname : language (anyCase "function") = caseless "function" :=
    language_anyCase (by decide)
  have hword : oneChar (CharClass.word.admits ·) = wordChar := rfl
  simp only [Rule.functionHead, functionHeads, language_append, language_one, language_many,
    language_nil, mul_one, language_blanks, language_exact, oneChar_blank, oneChar_except, hword,
    hname, mul_assoc]

/-- the line has a function whose parameters are followed by white space and one of the words -/
def HasFunctionBefore (words : List String) (line : List Char) : Prop :=
  ∃ before head gap name gap' parameters gap'' word after,
    line = before ++ head ++ gap ++ name ++ gap' ++ '(' :: parameters ++ ')' :: gap'' ++ word ++
      after ∧
    head ∈ caseless "function" ∧ (gap ≠ [] ∧ ∀ c ∈ gap, c ∈ whiteSpace) ∧
    (name ≠ [] ∧ ∀ c ∈ name, isWordChar c) ∧ (∀ c ∈ gap', c ∈ whiteSpace) ∧ ')' ∉ parameters ∧
    (∀ c ∈ gap'', c ∈ whiteSpace) ∧ ∃ s ∈ words, word ∈ caseless s

theorem mem_functionHeads {w : List Char} : w ∈ functionHeads ↔
    ∃ head gap name gap' parameters gap'',
      w = head ++ gap ++ name ++ gap' ++ '(' :: parameters ++ ')' :: gap'' ∧
      head ∈ caseless "function" ∧ (gap ≠ [] ∧ ∀ c ∈ gap, c ∈ whiteSpace) ∧
      (name ≠ [] ∧ ∀ c ∈ name, isWordChar c) ∧ (∀ c ∈ gap', c ∈ whiteSpace) ∧
      ')' ∉ parameters ∧ ∀ c ∈ gap'', c ∈ whiteSpace := by
  have hparameters {v : List Char} : v ∈ (anyBut ')')∗ ↔ ')' ∉ v :=
    mem_kstar_oneChar.trans ⟨fun h hmem => h _ hmem rfl, fun h c hc hne => h (hne ▸ hc)⟩
  constructor
  · rintro ⟨_, ⟨_, ⟨_, ⟨_, ⟨_, ⟨_, ⟨head, hhead, gap, hgap, rfl⟩, name, hname, rfl⟩, gap',
      hgap', rfl⟩, _, rfl, rfl⟩, parameters, hpar, rfl⟩, _, rfl, rfl⟩, gap'', hgap'', rfl⟩
    refine ⟨head, gap, name, gap', parameters, gap'', ?_, hhead, mem_oneChar_mul_kstar.1 hgap,
      mem_oneChar_mul_kstar.1 hname, mem_kstar_oneChar.1 hgap', hparameters.1 hpar,
      mem_kstar_oneChar.1 hgap''⟩
    simp
  · rintro ⟨head, gap, name, gap', parameters, gap'', rfl, hhead, hgap, hname, hgap', hpar, hgap''⟩
    refine ⟨_, ⟨_, ⟨_, ⟨_, ⟨_, ⟨_, ⟨head, hhead, gap, mem_oneChar_mul_kstar.2 hgap, rfl⟩, name,
      mem_oneChar_mul_kstar.2 hname, rfl⟩, gap', mem_kstar_oneChar.2 hgap', rfl⟩, ['('], rfl,
      rfl⟩, parameters, hparameters.2 hpar, rfl⟩, [')'], rfl, rfl⟩, gap'',
      mem_kstar_oneChar.2 hgap'', ?_⟩
    simp

theorem exists_mem_functionHeads_iff {K : Language Char} {words : List String} {line : List Char}
    (hK : ∀ v, v ∈ K ↔ ∃ s ∈ words, v ∈ caseless s) :
    (∃ w ∈ functionHeads * K, w <:+: line) ↔ HasFunctionBefore words line := by
  constructor
  · rintro ⟨_, ⟨_, hhead, word, hword, rfl⟩, before, after, rfl⟩
    obtain ⟨head, gap, name, gap', parameters, gap'', rfl, h₁, h₂, h₃, h₄, h₅, h₆⟩ :=
      mem_functionHeads.1 hhead
    refine ⟨before, head, gap, name, gap', parameters, gap'', word, after, ?_, h₁, h₂, h₃, h₄, h₅,
      h₆, (hK word).1 hword⟩
    simp
  · rintro ⟨before, head, gap, name, gap', parameters, gap'', word, after, rfl, h₁, h₂, h₃, h₄, h₅,
      h₆, hword⟩
    refine ⟨_, ⟨_, mem_functionHeads.2 ⟨head, gap, name, gap', parameters, gap'', rfl, h₁, h₂, h₃,
      h₄, h₅, h₆⟩, word, (hK word).2 hword, rfl⟩, before, after, ?_⟩
    simp

namespace Rule

theorem hasLanguage_publicFunction :
    (⟨[functionHead ++ anyCase "public", functionHead ++ anyCase "external"]⟩ :
      LinePattern).HasLanguage (functionHeads * (caseless "public" + caseless "external")) := by
  refine hasLanguage_iff fun w => ?_
  rw [mul_add, Language.mem_add, ← language_functionHead,
    ← language_anyCase (s := "public") (by decide),
    ← language_anyCase (s := "external") (by decide), ← language_append, ← language_append]
  simp

theorem hasLanguage_returningFunction :
    (seq (functionHead ++ anyCase "returns")).HasLanguage (functionHeads * caseless "returns") := by
  rw [← language_functionHead, ← language_anyCase (s := "returns") (by decide), ← language_append]
  exact hasLanguage_seq _

end Rule

/-- the character outside ASCII that folds to this letter, or the letter itself if there is none -/
def oddForm (a : Char) : Char :=
  if a = 's' then '\u017f' else if a = 'k' then '\u212a' else a

theorem map_oddForm_mem_caseless (s : String) : s.toList.map oddForm ∈ caseless s := by
  refine List.forall₂_map_left_iff.2 (List.forall₂_same.2 fun a _ => ?_)
  unfold oddForm
  split_ifs with hs hk
  · exact .inr (.inr (.inl ⟨hs, rfl⟩))
  · exact .inr (.inr (.inr ⟨hk, rfl⟩))
  · exact .inl rfl

/-- **What the patterns of the catalogue read.**  Each of the 21 patterns fires on exactly the lines
with a factor in its language.  A function that changes state is a name after the word `function`,
with parameters, and then white space and one of three words.  Where case does not matter, the long
s stands for s and the Kelvin sign for k. -/
theorem pattern_languages :
    (catalogue.flatMap (·.patterns)).length = 21 ∧
    List.Forall₂ (fun (r : Rule) (x : String × List (Language Char)) =>
      r.about.id = x.1 ∧ List.Forall₂ (fun (p : LinePattern) (L : Language Char) =>
        ∀ line, p.firesOn line ↔ ∃ w ∈ L, w <:+: line) r.patterns x.2) catalogue languages ∧
    List.Forall₂ (fun (p : LinePattern) (words : List String) =>
      ∀ line, p.firesOn line ↔ HasFunctionBefore words line)
      Rule.missingAccessControl.patterns [["public", "external"], ["returns"]] ∧
    ∀ s : String, s.toList.map oddForm ∈ caseless s := by
  have hcall (name : String) := Rule.hasLanguage_memberCall name
  have hcompound (op : Char) := Rule.hasLanguage_compoundAssignment op
  have hbinary (op : Char) := Rule.hasLanguage_binaryOperation op
  refine ⟨rfl, ?_, ?_, map_oddForm_mem_caseless⟩
  · refine .cons ⟨rfl, ?_⟩ (.cons ⟨rfl, ?_⟩ (.cons ⟨rfl, ?_⟩ (.cons ⟨rfl, ?_⟩
      (.cons ⟨rfl, ?_⟩ .nil))))
    · exact .cons (Rule.hasLanguage_memberCallAnyCase (by decide))
        (.cons (Rule.hasLanguage_memberCallAnyCase (by decide))
        (.cons (Rule.hasLanguage_memberCallAnyCase (by decide))
        (.cons (hasLanguage_anyCase (by decide)) (.cons (hasLanguage_anyCase (by decide)) .nil))))
    · exact .cons (hcompound '+') (.cons (hcompound '-') (.cons (hcompound '*')
        (.cons (hcompound '/') (.cons (hbinary '+') (.cons (hbinary '-') (.cons (hbinary '*')
        (.cons (hbinary '/') .nil)))))))
    · exact .cons Rule.hasLanguage_publicFunction
        (.cons Rule.hasLanguage_returningFunction .nil)
    · exact .cons (hcall ".call") (.cons (hcall ".delegatecall") (.cons (hcall ".staticcall") .nil))
    · exact .cons (hasLanguage_anyCase (by decide)) (.cons (hasLanguage_anyCase (by decide))
        (.cons (hasLanguage_anyCase (by decide)) .nil))
  · refine .cons (fun line => ?_) (.cons (fun line => ?_) .nil)
    · refine (Rule.hasLanguage_publicFunction line).trans (exists_mem_functionHeads_iff fun v => ?_)
      rw [Language.mem_add]
      simp
    · refine (Rule.hasLanguage_returningFunction line).trans
        (exists_mem_functionHeads_iff fun v => ?_)
      simp

end ContractAudit
