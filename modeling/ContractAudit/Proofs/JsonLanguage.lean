import Mathlib.Computability.Language
import ContractAudit.Json.Reader
import ContractAudit.Proofs.Numerals

/-!
# The texts of a value

A value has many texts: white space can stand before every word, the characters of a string can be
escaped in several ways, and a number keeps whatever spelling it has.

* `Json.spaces`, `Json.mark`, `Json.quoted`: white space, words of one character, and strings.
* `Json.language`: what a value looks like; `Json.document`: with white space around it.
* `Json.Spells rest s ts`: the words of the text `s` up to `rest` are `ts`.
* `Json.spells_of_mem_language`: what a value looks like spells its words, whatever comes after it.

The main statements are `Json.lex_of_mem_document` and `Json.lex_append_of_mem_document`.
-/

namespace ContractAudit.Json

open Text

/-! ## texts -/

/-- white space, or nothing -/
def spaces : Language Char := {w | ∀ c ∈ w, isSpace c}

/-- a word of one character, and white space before it -/
def mark (c : Char) : Language Char := spaces * {[c]}

/-- the ways in which a unit of a string is written: as such, with a single letter, or with the
digits of its code -/
def Unit16.language : Unit16 → Language Char
  | .char c => {w | w = [c] ∧ 0x20 ≤ c.toNat ∧ c ≠ '"' ∧ c ≠ '\\' ∨
      ∃ e, shortEscape? e = some c ∧ w = ['\\', e]}
  | .unit n => {w | ∃ a b c d i j k l, w = ['\\', 'u', a, b, c, d] ∧ hexDigit? a = some i ∧
      hexDigit? b = some j ∧ hexDigit? c = some k ∧ hexDigit? d = some l ∧
      n = ((i * 16 + j) * 16 + k) * 16 + l}

/-- the ways in which a string is written: units that spell it, between quotes -/
def quoted (k : Option String) : Language Char :=
  {w | ∃ us : List Unit16, (decodeUnits us).map String.ofList = k ∧
    w ∈ ({['"']} * (us.map Unit16.language).prod * {['"']} : Language Char)}

mutual

/-- what a value looks like, without the white space around it -/
def language : Json → Language Char
  | null => {"null".toList}
  | bool b => {(if b then "true" else "false").toList}
  | number l => {w | w = l ∧ IsNumeral l}
  | string k => quoted k
  | array [] => {['[']} * mark ']'
  | array (x :: xs) => {['[']} * (spaces * language x) * elementsLanguage xs * mark ']'
  | object [] => {['{']} * mark '}'
  | object ((k, x) :: ms) =>
    {['{']} * (spaces * quoted k) * mark ':' * (spaces * language x) * membersLanguage ms * mark '}'

/-- the elements of an array after the first -/
def elementsLanguage : List Json → Language Char
  | [] => 1
  | x :: xs => mark ',' * (spaces * language x) * elementsLanguage xs

/-- the members of an object after the first -/
def membersLanguage : List (Option String × Json) → Language Char
  | [] => 1
  | (k, x) :: ms =>
    mark ',' * (spaces * quoted k) * mark ':' * (spaces * language x) * membersLanguage ms

end

/-- the texts of a value -/
def document (x : Json) : Language Char := spaces * x.language * spaces

/-! ## strings -/

/-- a unit is read as such, whichever way it is written -/
theorem lexString_of_mem_language {u : Unit16} {w : List Char} (hw : w ∈ u.language)
    (done : List Unit16) (s : List Char) : lexString done (w ++ s) = lexString (u :: done) s := by
  cases u with
  | char c =>
    rcases hw with ⟨rfl, hcontrol, hquote, hbackslash⟩ | ⟨e, he, rfl⟩
    · rw [List.singleton_append, lexString.eq_5 _ _ _ hquote
        (fun _ _ _ _ _ h => absurd h hbackslash) fun _ _ h => absurd h hbackslash, if_neg]
      simp only [Bool.or_eq_true, decide_eq_true_eq, beq_iff_eq, not_or]
      exact ⟨by omega, hbackslash⟩
    · unfold shortEscape? at he
      split at he <;> cases he <;> rfl
  | unit n =>
    obtain ⟨a, b, c, d, i, j, k, l, rfl, ha, hb, hc, hd, rfl⟩ := hw
    show (hexDigit? a >>= fun i => hexDigit? b >>= fun j => hexDigit? c >>= fun k =>
      hexDigit? d >>= fun l =>
        lexString (.unit (((i * 16 + j) * 16 + k) * 16 + l) :: done) s) = _
    rw [ha, hb, hc, hd]
    rfl

/-- so is the content of a string, up to its closing quote -/
theorem lexString_of_mem_prod {us : List Unit16} {w : List Char}
    (hw : w ∈ (us.map Unit16.language).prod) (done : List Unit16) (s : List Char) :
    lexString done (w ++ '"' :: s) = some (done.reverse ++ us, s) := by
  induction us generalizing w done with
  | nil =>
    obtain rfl : w = [] := hw
    rw [List.append_nil]
    rfl
  | cons u us ih =>
    obtain ⟨v, hv, w, hw, rfl⟩ := hw
    rw [List.append_assoc, lexString_of_mem_language hv, ih hw, List.reverse_cons,
      List.append_assoc, List.singleton_append]

/-! ## words -/

/-- the words of a text up to `rest`, each read with the text after it at hand -/
inductive Spells (rest : List Char) : List Char → List Token → Prop
  | nil : Spells rest rest []
  | space {c : Char} {s : List Char} {ts : List Token} (hc : isSpace c) (h : Spells rest s ts) :
      Spells rest (c :: s) ts
  | word {c : Char} {s r : List Char} {t : Token} {ts : List Token} (hc : ¬ isSpace c)
      (ht : lexToken (c :: s) = some (t, r)) (hr : r.length ≤ s.length) (h : Spells rest r ts) :
      Spells rest (c :: s) (t :: ts)

theorem lexSteps_of_spells {rest s : List Char} {ts : List Token} (h : Spells rest s ts) {n : Nat}
    (hn : s.length ≤ n) (done : List Token) :
    ∃ m, rest.length ≤ m ∧ lexSteps n done s = lexSteps m (ts.reverse ++ done) rest := by
  induction h generalizing n done with
  | nil => exact ⟨n, hn, rfl⟩
  | space hc h ih =>
    obtain ⟨n, rfl⟩ := Nat.exists_eq_succ_of_ne_zero (Nat.ne_of_gt (Nat.lt_of_lt_of_le
      (Nat.succ_pos _) hn))
    rw [lexSteps, if_pos hc]
    exact ih (Nat.le_of_succ_le_succ hn) done
  | @word c s r t ts hc ht hr h ih =>
    obtain ⟨n, rfl⟩ := Nat.exists_eq_succ_of_ne_zero (Nat.ne_of_gt (Nat.lt_of_lt_of_le
      (Nat.succ_pos _) hn))
    obtain ⟨m, hm, ih⟩ := ih (Nat.le_trans hr (Nat.le_of_succ_le_succ hn)) (t :: done)
    refine ⟨m, hm, ?_⟩
    rw [lexSteps, if_neg hc, ht, List.reverse_cons, List.append_assoc, List.singleton_append]
    exact ih

/-- what is already read stays -/
theorem exists_append_of_lexSteps {m : Nat} {done ts : List Token} {s : List Char}
    (h : lexSteps m done s = some ts) : ∃ us, ts = done.reverse ++ us := by
  induction m, done, s using lexSteps.induct with
  | case1 m done =>
    rw [lexSteps] at h
    exact ⟨[], by rw [List.append_nil, Option.some_inj.1 h]⟩
  | case2 => cases h
  | case3 done m c s hc ih =>
    rw [lexSteps, if_pos hc] at h
    exact ih h
  | case4 done m c s hc hword =>
    rw [lexSteps, if_neg hc, hword] at h
    cases h
  | case5 done m c s hc t r hword ih =>
    rw [lexSteps, if_neg hc, hword] at h
    obtain ⟨us, rfl⟩ := ih h
    exact ⟨t :: us, by rw [List.reverse_cons, List.append_assoc, List.singleton_append]⟩

/-- what is not white space adds a word, if it can be read at all -/
theorem exists_word_of_lexSteps {s : List Char} (hs : ∃ c ∈ s, ¬ isSpace c) {m : Nat}
    {done ts : List Token} (h : lexSteps m done s = some ts) :
    ∃ t us, ts = done.reverse ++ t :: us := by
  induction s generalizing m with
  | nil =>
    obtain ⟨c, hc, -⟩ := hs
    cases hc
  | cons c s ih =>
    cases m with
    | zero => cases h
    | succ m =>
      rw [lexSteps] at h
      split_ifs at h with hc
      · obtain ⟨d, hd, hspace⟩ := hs
        refine ih ⟨d, ?_, hspace⟩ h
        exact (List.mem_cons.1 hd).resolve_left fun e => hspace (e ▸ hc)
      · split at h
        · cases h
        · rename_i t r _
          obtain ⟨us, rfl⟩ := exists_append_of_lexSteps h
          exact ⟨t, us, by rw [List.reverse_cons, List.append_assoc, List.singleton_append]⟩

section
variable {rest s w : List Char} {ts : List Token}

theorem spells_of_mem_spaces (hw : w ∈ spaces) (h : Spells rest s ts) :
    Spells rest (w ++ s) ts := by
  induction w with
  | nil => exact h
  | cons c w ih =>
    obtain ⟨hc, hw⟩ := List.forall_mem_cons.1 hw
    exact .space hc (ih hw)

theorem spells_of_mem_mark {c : Char} {t : Token} (hc : ¬ isSpace c)
    (ht : ∀ s, lexToken (c :: s) = some (t, s)) (hw : w ∈ mark c) (h : Spells rest s ts) :
    Spells rest (w ++ s) (t :: ts) := by
  obtain ⟨gap, hgap, _, rfl, rfl⟩ := hw
  rw [List.append_assoc]
  exact spells_of_mem_spaces hgap (.word hc (ht s) (Nat.le_refl _) h)

/-- `null`, `true` and `false` -/
theorem spells_name (c : Char) (cs : List Char) (t : Token) (hc : ¬ isSpace c)
    (ht : ∀ s, lexToken (c :: (cs ++ s)) = some (t, s)) (h : Spells rest s ts) :
    Spells rest (c :: (cs ++ s)) (t :: ts) := by
  refine .word hc (ht s) ?_ h
  rw [List.length_append]
  exact Nat.le_add_left _ _

theorem spells_of_mem_quoted {k : Option String} (hw : w ∈ quoted k) (h : Spells rest s ts) :
    Spells rest (w ++ s) (.string k :: ts) := by
  obtain ⟨us, rfl, _, ⟨_, rfl, v, hv, rfl⟩, _, rfl, rfl⟩ := hw
  rw [List.append_assoc, List.append_assoc]
  refine .word (r := s) (by decide) ?_ ?_ h
  · show (lexString [] (v ++ '"' :: s)).map _ = _
    rw [lexString_of_mem_prod hv]
    rfl
  · simp
    omega

/-- a number is a word of its own if nothing behind it could belong to it -/
theorem spells_number {l : List Char} (hl : IsNumeral l) (hs : EndsNumber s)
    (h : Spells rest s ts) : Spells rest (l ++ s) (.number l :: ts) := by
  have hread := lexNumber_of_isNumeral hl hs
  have hfirst : ∃ c r, l = c :: r ∧ (isDigit c ∨ c = '-') := by
    rcases hl with hl | ⟨l', rfl, -⟩
    · obtain ⟨c, r, hcons, hc⟩ := hl.eq_cons
      exact ⟨c, r, hcons, .inl hc⟩
    · exact ⟨'-', l', rfl, .inr rfl⟩
  obtain ⟨c, r, rfl, hc⟩ := hfirst
  have hne : ∀ d : Char, ¬ isDigit d → d ≠ '-' → c ≠ d := by
    rintro d hd hminus rfl
    exact hc.elim hd hminus
  refine .word (r := s) ?_ ?_ ?_ h
  · simp only [isSpace, Bool.or_eq_true, beq_iff_eq, not_or]
    exact ⟨⟨⟨hne _ (by decide) (by decide), hne _ (by decide) (by decide)⟩,
      hne _ (by decide) (by decide)⟩, hne _ (by decide) (by decide)⟩
  · rw [lexToken, if_neg (hne _ (by decide) (by decide)), if_neg (hne _ (by decide) (by decide)),
      if_neg (hne _ (by decide) (by decide))]
    · change (lexNumber (c :: r ++ s)).map _ = _
      rw [hread]
      rfl
    all_goals exact hne _ (by decide) (by decide)
  · simp

/-! ## values -/

theorem endsNumber_of_mem_spaces (hw : w ∈ spaces) (hs : EndsNumber s) : EndsNumber (w ++ s) := by
  cases w with
  | nil => exact hs
  | cons c w =>
    rintro _ ⟨⟩
    have hc := hw c List.mem_cons_self
    simp only [isSpace, Bool.or_eq_true, beq_iff_eq] at hc
    rcases hc with ((rfl | rfl) | rfl) | rfl <;> decide

theorem endsNumber_of_mem_mark {c : Char} (hc : ¬ isDigit c ∧ c ≠ '.' ∧ c ≠ 'e' ∧ c ≠ 'E')
    (hw : w ∈ mark c) : EndsNumber (w ++ s) := by
  obtain ⟨gap, hgap, _, rfl, rfl⟩ := hw
  have hafter : EndsNumber (c :: s) := by
    rintro _ ⟨⟩
    exact hc
  rw [List.append_assoc]
  exact endsNumber_of_mem_spaces hgap hafter

theorem endsNumber_of_mem_elementsLanguage {xs : List Json} (hw : w ∈ elementsLanguage xs)
    (hs : EndsNumber s) : EndsNumber (w ++ s) := by
  cases xs with
  | nil =>
    obtain rfl : w = [] := hw
    exact hs
  | cons x xs =>
    obtain ⟨_, ⟨comma, hcomma, v, -, rfl⟩, u, -, rfl⟩ := hw
    rw [List.append_assoc, List.append_assoc]
    exact endsNumber_of_mem_mark (by decide) hcomma

theorem endsNumber_of_mem_membersLanguage {ms : List (Option String × Json)}
    (hw : w ∈ membersLanguage ms) (hs : EndsNumber s) : EndsNumber (w ++ s) := by
  cases ms with
  | nil =>
    obtain rfl : w = [] := hw
    exact hs
  | cons m ms =>
    obtain ⟨_, ⟨_, ⟨_, ⟨comma, hcomma, v, -, rfl⟩, _, -, rfl⟩, _, -, rfl⟩, u, -, rfl⟩ := hw
    simp only [List.append_assoc]
    exact endsNumber_of_mem_mark (by decide) hcomma

end

theorem elementTokens_cons (x : Json) (xs : List Json) :
    elementTokens (x :: xs) = tokens x ++ xs.flatMap fun y => .comma :: tokens y := by
  induction xs generalizing x with
  | nil => rw [elementTokens, List.flatMap_nil, List.append_nil]
  | cons y xs ih => rw [elementTokens, ih, List.flatMap_cons, List.cons_append]

theorem memberTokens_cons (k : Option String) (x : Json) (ms : List (Option String × Json)) :
    memberTokens ((k, x) :: ms) = .string k :: .colon :: (tokens x ++
      ms.flatMap fun m => .comma :: .string m.1 :: .colon :: tokens m.2) := by
  induction ms generalizing k x with
  | nil => rw [memberTokens, List.flatMap_nil, List.append_nil]
  | cons m ms ih => rw [memberTokens, ih, List.flatMap_cons, List.cons_append, List.cons_append,
      List.cons_append]

mutual

/-- What a value looks like spells its words, whatever comes after it; only a number has to end
there. -/
theorem spells_of_mem_language (x : Json) {rest w s : List Char} {ts : List Token}
    (hw : w ∈ x.language) (hs : (∃ l, x = number l) → EndsNumber s) (h : Spells rest s ts) :
    Spells rest (w ++ s) (tokens x ++ ts) := by
  match x with
  | null =>
    obtain rfl : w = "null".toList := hw
    rw [tokens]
    exact spells_name 'n' ['u', 'l', 'l'] .null (by decide) (fun _ => rfl) h
  | bool true =>
    obtain rfl : w = "true".toList := hw
    rw [tokens]
    exact spells_name 't' ['r', 'u', 'e'] (.bool true) (by decide) (fun _ => rfl) h
  | bool false =>
    obtain rfl : w = "false".toList := hw
    rw [tokens]
    exact spells_name 'f' ['a', 'l', 's', 'e'] (.bool false) (by decide) (fun _ => rfl) h
  | number l =>
    obtain ⟨rfl, hl⟩ := hw
    exact spells_number hl (hs ⟨w, rfl⟩) h
  | string k => exact spells_of_mem_quoted hw h
  | array [] =>
    obtain ⟨_, rfl, v, hv, rfl⟩ := hw
    rw [tokens, elementTokens]
    exact .word (by decide) rfl (Nat.le_refl _) (spells_of_mem_mark (by decide) (fun _ => rfl) hv h)
  | array (x :: xs) =>
    obtain ⟨_, ⟨_, ⟨_, rfl, _, ⟨gap, hgap, u, hu, rfl⟩, rfl⟩, v, hv, rfl⟩, close, hclose, rfl⟩ := hw
    have hend : EndsNumber (close ++ s) := endsNumber_of_mem_mark (by decide) hclose
    have hrest := spells_elements xs hv hend
      (spells_of_mem_mark (t := .closeBracket) (by decide) (fun _ => rfl) hclose h)
    have hfirst := spells_of_mem_language x hu
      (fun _ => endsNumber_of_mem_elementsLanguage hv hend) hrest
    rw [tokens, elementTokens_cons]
    simpa using Spells.word (c := '[') (t := .openBracket) (by decide) rfl (Nat.le_refl _)
      (spells_of_mem_spaces hgap hfirst)
  | object [] =>
    obtain ⟨_, rfl, v, hv, rfl⟩ := hw
    rw [tokens, memberTokens]
    exact .word (by decide) rfl (Nat.le_refl _) (spells_of_mem_mark (by decide) (fun _ => rfl) hv h)
  | object ((k, x) :: ms) =>
    obtain ⟨_, ⟨_, ⟨_, ⟨_, ⟨_, rfl, _, ⟨gap, hgap, key, hkey, rfl⟩, rfl⟩, colon, hcolon, rfl⟩, _,
      ⟨gap', hgap', u, hu, rfl⟩, rfl⟩, v, hv, rfl⟩, close, hclose, rfl⟩ := hw
    have hend : EndsNumber (close ++ s) := endsNumber_of_mem_mark (by decide) hclose
    have hrest := spells_members ms hv hend
      (spells_of_mem_mark (t := .closeBrace) (by decide) (fun _ => rfl) hclose h)
    have hfirst := spells_of_mem_language x hu
      (fun _ => endsNumber_of_mem_membersLanguage hv hend) hrest
    have hcolon := spells_of_mem_mark (t := .colon) (by decide) (fun _ => rfl) hcolon
      (spells_of_mem_spaces hgap' hfirst)
    rw [tokens, memberTokens_cons]
    simpa using Spells.word (c := '{') (t := .openBrace) (by decide) rfl (Nat.le_refl _)
      (spells_of_mem_spaces hgap (spells_of_mem_quoted hkey hcolon))

/-- so do the elements after the first -/
theorem spells_elements (xs : List Json) {rest w s : List Char} {ts : List Token}
    (hw : w ∈ elementsLanguage xs) (hs : EndsNumber s) (h : Spells rest s ts) :
    Spells rest (w ++ s) ((xs.flatMap fun y => .comma :: tokens y) ++ ts) := by
  match xs with
  | [] =>
    obtain rfl : w = [] := hw
    exact h
  | x :: xs =>
    obtain ⟨_, ⟨comma, hcomma, _, ⟨gap, hgap, u, hu, rfl⟩, rfl⟩, v, hv, rfl⟩ := hw
    have hrest := spells_elements xs hv hs h
    have hfirst := spells_of_mem_language x hu
      (fun _ => endsNumber_of_mem_elementsLanguage hv hs) hrest
    simpa using spells_of_mem_mark (t := .comma) (by decide) (fun _ => rfl) hcomma
      (spells_of_mem_spaces hgap hfirst)

/-- and the members after the first -/
theorem spells_members (ms : List (Option String × Json)) {rest w s : List Char} {ts : List Token}
    (hw : w ∈ membersLanguage ms) (hs : EndsNumber s) (h : Spells rest s ts) :
    Spells rest (w ++ s)
      ((ms.flatMap fun m => .comma :: .string m.1 :: .colon :: tokens m.2) ++ ts) := by
  match ms with
  | [] =>
    obtain rfl : w = [] := hw
    exact h
  | (k, x) :: ms =>
    obtain ⟨_, ⟨_, ⟨_, ⟨comma, hcomma, _, ⟨gap, hgap, key, hkey, rfl⟩, rfl⟩, colon, hcolon, rfl⟩, _,
      ⟨gap', hgap', u, hu, rfl⟩, rfl⟩, v, hv, rfl⟩ := hw
    have hrest := spells_members ms hv hs h
    have hfirst := spells_of_mem_language x hu
      (fun _ => endsNumber_of_mem_membersLanguage hv hs) hrest
    have hcolon := spells_of_mem_mark (t := .colon) (by decide) (fun _ => rfl) hcolon
      (spells_of_mem_spaces hgap' hfirst)
    simpa using spells_of_mem_mark (t := .comma) (by decide) (fun _ => rfl) hcomma
      (spells_of_mem_spaces hgap (spells_of_mem_quoted hkey hcolon))

end

/-! ## documents -/

/-- **The words of a text** are those of its value. -/
theorem lex_of_mem_document {x : Json} {w : List Char} (hw : w ∈ x.document) :
    lex w = some (tokens x) := by
  obtain ⟨_, ⟨gap, hgap, v, hv, rfl⟩, gap', hgap', rfl⟩ := hw
  have hafter : Spells [] (gap' ++ []) [] := spells_of_mem_spaces hgap' .nil
  have hend : EndsNumber ([] : List Char) := fun _ h => nomatch h
  have hvalue := spells_of_mem_language x hv (fun _ => endsNumber_of_mem_spaces hgap' hend) hafter
  have h := spells_of_mem_spaces hgap hvalue
  obtain ⟨m, -, hlex⟩ := lexSteps_of_spells h (Nat.le_refl _) []
  simp only [List.append_nil] at hlex
  simp only [lex, List.append_assoc]
  rw [hlex, lexSteps, List.reverse_reverse]

/-- **More than white space behind a text** adds a word, if it can be read at all; behind a number
it could belong to the number. -/
theorem lex_append_of_mem_document {x : Json} {w s : List Char} (hw : w ∈ x.document)
    (hx : ¬ ∃ l, x = number l) (hs : ∃ c ∈ s, ¬ isSpace c) {ts : List Token}
    (h : lex (w ++ s) = some ts) : ∃ t us, ts = tokens x ++ t :: us := by
  obtain ⟨_, ⟨gap, hgap, v, hv, rfl⟩, gap', hgap', rfl⟩ := hw
  have hrest : Spells (gap' ++ s) (gap' ++ s) [] := .nil
  have hvalue := spells_of_mem_language x hv (fun hl => absurd hl hx) hrest
  have hspells := spells_of_mem_spaces hgap hvalue
  obtain ⟨m, -, hlex⟩ := lexSteps_of_spells hspells (Nat.le_refl _) []
  rw [lex] at h
  simp only [List.append_assoc, List.append_nil] at h hlex
  rw [hlex] at h
  obtain ⟨c, hc, hspace⟩ := hs
  obtain ⟨t, us, rfl⟩ := exists_word_of_lexSteps ⟨c, List.mem_append_right _ hc, hspace⟩ h
  exact ⟨t, us, by rw [List.reverse_reverse]⟩

end ContractAudit.Json
