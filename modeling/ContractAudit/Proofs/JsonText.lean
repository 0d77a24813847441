import ContractAudit.Json.Pretty
import ContractAudit.Proofs.JsonLanguage

/-!
# Written values

What is written over several lines is one of the texts of the value.

* `Json.IsPlain x`: the numbers in `x` are spelled as numbers, and its strings are texts.
* `Json.quote_mem_quoted`: an escaped string is one of the ways to write it.
* `Json.prettyAt_mem_language`: a written value looks like the value, at every level.

The main statement is `Json.pretty_mem_document`.
-/

namespace ContractAudit.Json

open Text

mutual

/-- the numbers are spelled as numbers, and the strings are texts -/
def IsPlain : Json → Prop
  | null | bool _ => True
  | number l => IsNumeral l
  | string s => s.isSome
  | array xs => ArePlain xs
  | object ms => MembersArePlain ms

/-- all elements are plain -/
def ArePlain : List Json → Prop
  | [] => True
  | x :: xs => x.IsPlain ∧ ArePlain xs

/-- all keys are texts, and all members are plain -/
def MembersArePlain : List (Option String × Json) → Prop
  | [] => True
  | (k, x) :: ms => k.isSome ∧ x.IsPlain ∧ MembersArePlain ms

end

/-! ## strings -/

theorem hexDigit?_hexDigit {n : Nat} (hn : n < 16) : hexDigit? (hexDigit n) = some n := by
  have h : ∀ n < 16, hexDigit? (hexDigit n) = some n := by decide
  exact h n hn

/-- the characters that are escaped with a single letter -/
def shortEscaped : List Char := ['"', '\\', '\x08', '\x0c', '\n', '\r', '\t']

theorem escapeChar_of_not_mem {c : Char} (hshort : c ∉ shortEscaped) (hplain : ¬ isWrittenPlain c) :
    c.toNat < 0x20 ∧ escapeChar c =
      ['\\', 'u', '0', '0', hexDigit (c.toNat / 16), hexDigit (c.toNat % 16)] := by
  simp only [shortEscaped, List.mem_cons, List.not_mem_nil, or_false, not_or] at hshort
  obtain ⟨hquote, hbackslash, hb, hf, hn, hr, ht⟩ := hshort
  have hcontrol : c.toNat < 0x20 := by
    simpa [isWrittenPlain, hquote, hbackslash] using hplain
  refine ⟨hcontrol, ?_⟩
  rw [escapeChar, if_neg hquote, if_neg hbackslash, if_neg hb, if_neg hf, if_neg hn, if_neg hr,
    if_neg ht, if_pos hcontrol]

/-- an escaped character is one of the ways to write a unit, which stands for it -/
theorem exists_unit (c : Char) :
    ∃ u : Unit16, escapeChar c ∈ u.language ∧
      ∀ us, decodeUnits (u :: us) = (decodeUnits us).map (c :: ·) := by
  by_cases hplain : isWrittenPlain c
  · refine ⟨.char c, .inl ⟨escapeChar_of_isWrittenPlain hplain, ?_⟩, fun us => rfl⟩
    simp only [isWrittenPlain, Bool.and_eq_true, bne_iff_ne, decide_eq_true_eq] at hplain
    exact ⟨hplain.2, hplain.1.1, hplain.1.2⟩
  by_cases hshort : c ∈ shortEscaped
  · refine ⟨.char c, .inr ?_, fun us => rfl⟩
    simp only [shortEscaped, List.mem_cons, List.not_mem_nil, or_false] at hshort
    rcases hshort with rfl | rfl | rfl | rfl | rfl | rfl | rfl <;> exact ⟨_, rfl, rfl⟩
  · obtain ⟨hcontrol, hescape⟩ := escapeChar_of_not_mem hshort hplain
    refine ⟨.unit c.toNat, ⟨_, _, _, _, 0, 0, _, _, hescape, rfl, rfl,
      hexDigit?_hexDigit (by omega), hexDigit?_hexDigit (by omega), by omega⟩, fun us => ?_⟩
    rw [decodeUnits.eq_def]
    refine (if_pos (.inl (by omega))).trans ?_
    rw [Char.ofNat_toNat]

theorem exists_units (cs : List Char) :
    ∃ us : List Unit16, cs.flatMap escapeChar ∈ (us.map Unit16.language).prod ∧
      decodeUnits us = some cs := by
  induction cs with
  | nil => exact ⟨[], rfl, rfl⟩
  | cons c cs ih =>
    obtain ⟨u, hu, hdecode⟩ := exists_unit c
    obtain ⟨us, hus, hcs⟩ := ih
    exact ⟨u :: us, ⟨_, hu, _, hus, rfl⟩, by rw [hdecode, hcs, Option.map_some]⟩

/-- an escaped string is one of the ways to write it -/
theorem quote_mem_quoted (k : String) : (quote k).toList ∈ quoted (some k) := by
  obtain ⟨us, hus, hk⟩ := exists_units k.toList
  refine ⟨us, by rw [hk, Option.map_some, String.ofList_toList], _, ⟨_, rfl, _, hus, rfl⟩, _, rfl,
    ?_⟩
  rw [quote, String.toList_append, String.toList_append, toList_escape]
  rfl

/-! ## values -/

theorem newLine_mem_spaces (level : Nat) : (newLine level).toList ∈ spaces := by
  intro c hc
  rw [newLine, String.toList_append] at hc
  rcases List.mem_append.1 hc with hc | hc
  · obtain rfl := List.mem_singleton.1 hc
    decide
  · rw [String.toList_ofList] at hc
    rw [List.eq_of_mem_replicate hc]
    decide

theorem blank_mem_spaces : [' '] ∈ spaces := List.forall_mem_singleton.2 (by decide)

theorem singleton_mem_mark (c : Char) : [c] ∈ mark c :=
  ⟨[], fun _ h => (nomatch h), [c], rfl, rfl⟩

theorem append_mem_mark {gap : List Char} (hgap : gap ∈ spaces) (c : Char) : gap ++ [c] ∈ mark c :=
  ⟨gap, hgap, [c], rfl, rfl⟩

theorem toList_join (l : List String) : (String.join l).toList = l.flatMap String.toList := by
  have h : ∀ s : String, (l.foldl (· ++ ·) s).toList = s.toList ++ l.flatMap String.toList := by
    induction l with
    | nil => exact fun s => (List.append_nil _).symm
    | cons t l ih =>
      intro s
      rw [List.foldl_cons, ih, String.toList_append, List.flatMap_cons, List.append_assoc]
  exact h ""

mutual

/-- a written value looks like the value, at every level -/
theorem prettyAt_mem_language (x : Json) (hx : x.IsPlain) (level : Nat) :
    (prettyAt level x).toList ∈ x.language := by
  match x with
  | null => exact rfl
  | bool true => exact rfl
  | bool false => exact rfl
  | number l => exact ⟨String.toList_ofList, hx⟩
  | string s =>
    obtain ⟨k, rfl⟩ := Option.isSome_iff_exists.1 hx
    exact quote_mem_quoted k
  | array [] => exact ⟨_, rfl, _, singleton_mem_mark ']', by rw [prettyAt]; rfl⟩
  | array (x :: xs) =>
    obtain ⟨hx, hxs⟩ := hx
    have hfirst := prettyAt_mem_language x hx (level + 1)
    have hrest := prettyElements_mem_elementsLanguage xs hxs (level + 1)
    refine ⟨_, ⟨_, ⟨_, rfl, _, ⟨_, newLine_mem_spaces (level + 1), _, hfirst, rfl⟩, rfl⟩, _, hrest,
      rfl⟩, _, append_mem_mark (newLine_mem_spaces level) ']', ?_⟩
    rw [prettyAt]
    simp [String.toList_append]
  | object [] => exact ⟨_, rfl, _, singleton_mem_mark '}', by rw [prettyAt]; rfl⟩
  | object ((k, x) :: ms) =>
    obtain ⟨hk, hx, hms⟩ := hx
    obtain ⟨k, rfl⟩ := Option.isSome_iff_exists.1 hk
    have hfirst := prettyAt_mem_language x hx (level + 1)
    have hrest := prettyMembers_mem_membersLanguage ms hms (level + 1)
    refine ⟨_, ⟨_, ⟨_, ⟨_, ⟨_, rfl, _, ⟨_, newLine_mem_spaces (level + 1), _, quote_mem_quoted k,
      rfl⟩, rfl⟩, _, singleton_mem_mark ':', rfl⟩, _, ⟨_, blank_mem_spaces, _, hfirst, rfl⟩, rfl⟩,
      _, hrest, rfl⟩, _, append_mem_mark (newLine_mem_spaces level) '}', ?_⟩
    rw [prettyAt]
    simp [String.toList_append]

/-- so do the elements after the first -/
theorem prettyElements_mem_elementsLanguage (xs : List Json) (hxs : ArePlain xs) (level : Nat) :
    (String.join (prettyElements level xs)).toList ∈ elementsLanguage xs := by
  match xs with
  | [] => exact rfl
  | x :: xs =>
    obtain ⟨hx, hxs⟩ := hxs
    have hfirst := prettyAt_mem_language x hx level
    have hrest := prettyElements_mem_elementsLanguage xs hxs level
    refine ⟨_, ⟨_, singleton_mem_mark ',', _, ⟨_, newLine_mem_spaces level, _, hfirst, rfl⟩, rfl⟩,
      _, hrest, ?_⟩
    rw [toList_join, toList_join, prettyElements]
    simp [String.toList_append]

/-- and the members after the first -/
theorem prettyMembers_mem_membersLanguage (ms : List (Option String × Json))
    (hms : MembersArePlain ms) (level : Nat) :
    (String.join (prettyMembers level ms)).toList ∈ membersLanguage ms := by
  match ms with
  | [] => exact rfl
  | (k, x) :: ms =>
    obtain ⟨hk, hx, hms⟩ := hms
    obtain ⟨k, rfl⟩ := Option.isSome_iff_exists.1 hk
    have hfirst := prettyAt_mem_language x hx level
    have hrest := prettyMembers_mem_membersLanguage ms hms level
    refine ⟨_, ⟨_, ⟨_, ⟨_, singleton_mem_mark ',', _, ⟨_, newLine_mem_spaces level, _,
      quote_mem_quoted k, rfl⟩, rfl⟩, _, singleton_mem_mark ':', rfl⟩, _, ⟨_, blank_mem_spaces, _,
      hfirst, rfl⟩, rfl⟩, _, hrest, ?_⟩
    rw [toList_join, toList_join, prettyMembers]
    simp [String.toList_append]

end

/-- **A written value** is one of the texts of the value, if its numbers are spelled as numbers and
its strings are texts. -/
theorem pretty_mem_document {x : Json} (hx : x.IsPlain) : x.pretty.toList ∈ x.document :=
  ⟨_, ⟨[], fun _ h => (nomatch h), _, prettyAt_mem_language x hx 0, rfl⟩, [],
    fun _ h => (nomatch h), List.append_nil _⟩

end ContractAudit.Json
