import ContractAudit.Proofs.JsonText

/-!
# Reading values back

* `Json.readValue_tokens`: the words of a value, whatever comes after them, are read as that value.
* `Json.ofTokens?_tokens`: the words of a value spell it, and nothing else.

The main statements are `Json.parse_of_mem_document` and `Json.parse_append_of_mem_document`; a
written value is read back by `Json.parse_pretty`.
-/

namespace ContractAudit.Json

/-- no value begins with a closing bracket -/
theorem tokens_eq_cons (x : Json) : ∃ t ts, tokens x = t :: ts ∧ t ≠ .closeBracket := by
  cases x with
  | null => exact ⟨.null, [], by rw [tokens], by decide⟩
  | bool b => exact ⟨.bool b, [], by rw [tokens], by simp⟩
  | number l => exact ⟨.number l, [], by rw [tokens], by simp⟩
  | string s => exact ⟨.string s, [], by rw [tokens], by simp⟩
  | array xs => exact ⟨.openBracket, _, by rw [tokens], by decide⟩
  | object ms => exact ⟨.openBrace, _, by rw [tokens], by decide⟩

section
variable {n : Nat} {rest : List Token}

theorem readValue_openBracket {t : Token} {ts : List Token} (ht : t ≠ .closeBracket) :
    readValue (n + 1) (.openBracket :: t :: ts) =
      (readElements n [] (t :: ts)).map fun (xs, r) => (.array xs, r) := by
  rw [readValue]
  rintro ts' h
  exact ht (List.cons.inj h).1

theorem readValue_openBrace (k : Option String) (ts : List Token) :
    readValue (n + 1) (.openBrace :: .string k :: ts) =
      (readMembers n [] (.string k :: ts)).map fun (ms, r) => (.object ms, r) := rfl

theorem readElements_of_comma {x : Json} {done : List Json} {ts : List Token}
    (h : readValue n ts = some (x, .comma :: rest)) :
    readElements (n + 1) done ts = readElements n (x :: done) rest := by
  rw [readElements, h]

theorem readElements_of_close {x : Json} {done : List Json} {ts : List Token}
    (h : readValue n ts = some (x, .closeBracket :: rest)) :
    readElements (n + 1) done ts = some ((x :: done).reverse, rest) := by
  rw [readElements, h]

theorem readMembers_of_comma {k : Option String} {x : Json}
    {done : List (Option String × Json)} {ts : List Token}
    (h : readValue n ts = some (x, .comma :: rest)) :
    readMembers (n + 1) done (.string k :: .colon :: ts) =
      readMembers n ((k, x) :: done) rest := by
  rw [readMembers, h]

theorem readMembers_of_close {k : Option String} {x : Json}
    {done : List (Option String × Json)} {ts : List Token}
    (h : readValue n ts = some (x, .closeBrace :: rest)) :
    readMembers (n + 1) done (.string k :: .colon :: ts) =
      some (((k, x) :: done).reverse, rest) := by
  rw [readMembers, h]

end

/-- every value has a word -/
theorem length_tokens_pos (x : Json) : 0 < (tokens x).length := by
  obtain ⟨t, ts, h, -⟩ := tokens_eq_cons x
  rw [h]
  exact Nat.succ_pos _

mutual

/-- the words of a value, whatever comes after them, are read as that value -/
theorem readValue_tokens : (x : Json) → (n : Nat) → (tokens x).length ≤ n →
    (rest : List Token) → readValue n (tokens x ++ rest) = some (x, rest)
  | x, 0, hn, _ => absurd hn (Nat.not_le.2 (length_tokens_pos x))
  | null, _ + 1, _, _ => by rw [tokens]; rfl
  | bool b, _ + 1, _, _ => by rw [tokens]; rfl
  | number l, _ + 1, _, _ => by rw [tokens]; rfl
  | string s, _ + 1, _, _ => by rw [tokens]; rfl
  | array [], _ + 1, _, _ => by rw [tokens, elementTokens]; rfl
  | array (x :: xs), n + 1, hn, rest => by
    rw [tokens, List.length_cons, List.length_append, List.length_singleton] at hn
    have h := readElements_tokens x xs n (Nat.lt_of_succ_le (Nat.le_of_succ_le_succ hn)) [] rest
    -- the reader tells an empty array by its bracket, which is no first word of a value
    obtain ⟨t, ts, hfirst, ht⟩ := tokens_eq_cons x
    have hcons : elementTokens (x :: xs) ++ .closeBracket :: rest =
        t :: (ts ++ (xs.flatMap fun y => .comma :: tokens y) ++ .closeBracket :: rest) := by
      rw [elementTokens_cons, hfirst, List.cons_append, List.cons_append]
    rw [tokens, List.cons_append, List.append_assoc, List.singleton_append]
    rw [hcons] at h ⊢
    rw [readValue_openBracket ht, h]
    rfl
  | object [], _ + 1, _, _ => by rw [tokens, memberTokens]; rfl
  | object ((k, x) :: ms), n + 1, hn, rest => by
    rw [tokens, List.length_cons, List.length_append, List.length_singleton] at hn
    have h := readMembers_tokens k x ms n (Nat.lt_of_succ_le (Nat.le_of_succ_le_succ hn)) [] rest
    rw [tokens, List.cons_append, List.append_assoc, List.singleton_append]
    rw [memberTokens_cons, List.cons_append] at h ⊢
    rw [readValue_openBrace, h]
    rfl
termination_by x => sizeOf x

/-- so are elements in an array -/
theorem readElements_tokens : (x : Json) → (xs : List Json) → (n : Nat) →
    (elementTokens (x :: xs)).length < n → (done : List Json) → (rest : List Token) →
    readElements n done (elementTokens (x :: xs) ++ .closeBracket :: rest) =
      some (done.reverse ++ x :: xs, rest)
  | _, _, 0, hn, _, _ => absurd hn (Nat.not_lt_zero _)
  | x, [], n + 1, hn, done, rest => by
    rw [elementTokens] at hn ⊢
    rw [readElements_of_close (readValue_tokens x n (Nat.le_of_lt_succ hn) _), List.reverse_cons]
  | x, y :: xs, n + 1, hn, done, rest => by
    rw [elementTokens, List.length_append, List.length_cons] at hn
    rw [elementTokens, List.append_assoc, List.cons_append,
      readElements_of_comma (readValue_tokens x n (by omega) _),
      readElements_tokens y xs n (by omega), List.reverse_cons, List.append_assoc,
      List.singleton_append]
termination_by x xs => sizeOf (x :: xs)

/-- and members in an object -/
theorem readMembers_tokens : (k : Option String) → (x : Json) →
    (ms : List (Option String × Json)) → (n : Nat) →
    (memberTokens ((k, x) :: ms)).length < n → (done : List (Option String × Json)) →
    (rest : List Token) →
    readMembers n done (memberTokens ((k, x) :: ms) ++ .closeBrace :: rest) =
      some (done.reverse ++ (k, x) :: ms, rest)
  | _, _, _, 0, hn, _, _ => absurd hn (Nat.not_lt_zero _)
  | k, x, [], n + 1, hn, done, rest => by
    rw [memberTokens, List.length_cons, List.length_cons] at hn
    rw [memberTokens, List.cons_append, List.cons_append,
      readMembers_of_close (readValue_tokens x n (by omega) _), List.reverse_cons]
  | k, x, (l, y) :: ms, n + 1, hn, done, rest => by
    rw [memberTokens, List.length_cons, List.length_cons, List.length_append,
      List.length_cons] at hn
    rw [memberTokens, List.cons_append, List.cons_append, List.append_assoc, List.cons_append,
      readMembers_of_comma (readValue_tokens x n (by omega) _),
      readMembers_tokens l y ms n (by omega), List.reverse_cons, List.append_assoc,
      List.singleton_append]
termination_by k x ms => sizeOf ((k, x) :: ms)

end

theorem ofTokens?_tokens (x : Json) : ofTokens? (tokens x) = some x := by
  have h := readValue_tokens x _ (Nat.le_refl _) []
  rw [List.append_nil] at h
  rw [ofTokens?, h]

/-- more words than those of a value spell none -/
theorem ofTokens?_tokens_append (x : Json) (t : Token) (ts : List Token) :
    ofTokens? (tokens x ++ t :: ts) = none := by
  have hlength : (tokens x).length ≤ (tokens x ++ t :: ts).length := by
    rw [List.length_append]
    exact Nat.le_add_right _ _
  rw [ofTokens?, readValue_tokens x _ hlength]

/-- **A text of a value** is read as that value. -/
theorem parse_of_mem_document {x : Json} {s : String} (hs : s.toList ∈ x.document) :
    parse s = some x := by
  rw [parse, lex_of_mem_document hs]
  exact ofTokens?_tokens x

/-- **More than white space behind a text** makes it unreadable; behind a number it could belong to
the number. -/
theorem parse_append_of_mem_document {x : Json} {s t : String} (hs : s.toList ∈ x.document)
    (hx : ¬ ∃ l, x = number l) (ht : ∃ c ∈ t.toList, ¬ isSpace c) : parse (s ++ t) = none := by
  rw [parse, String.toList_append]
  cases h : lex (s.toList ++ t.toList) with
  | none => rfl
  | some ts =>
    obtain ⟨t, us, rfl⟩ := lex_append_of_mem_document hs hx ht h
    exact ofTokens?_tokens_append x t us

/-- a written value is read back -/
theorem parse_pretty {x : Json} (hx : x.IsPlain) : parse x.pretty = some x :=
  parse_of_mem_document (pretty_mem_document hx)

end ContractAudit.Json
