import ContractAudit.Json.Value
import ContractAudit.Text.Digits

/-!
# Writing JSON

Values are written over several lines: two spaces more for each level, one element or member a
line, a colon and a space after a key, and nothing between the brackets of an empty array or
object.

* `Json.quote`: a string in quotes.  Only the quote, the backslash and the characters below the
  space are escaped.
* `Json.pretty`: a value.

The main statement is `toList_escape`: every character is escaped on its own.
-/

namespace ContractAudit.Json

/-- a character inside a string -/
def escapeChar (c : Char) : List Char :=
  if c = '"' then ['\\', '"']
  else if c = '\\' then ['\\', '\\']
  else if c = '\x08' then ['\\', 'b']
  else if c = '\x0c' then ['\\', 'f']
  else if c = '\n' then ['\\', 'n']
  else if c = '\r' then ['\\', 'r']
  else if c = '\t' then ['\\', 't']
  else if c.toNat < 0x20 then
    ['\\', 'u', '0', '0', Text.hexDigit (c.toNat / 16), Text.hexDigit (c.toNat % 16)]
  else [c]

/-- the character is written as it is -/
def isWrittenPlain (c : Char) : Bool := c != '"' && c != '\\' && 0x20 ≤ c.toNat

/-- a string with its characters escaped; one that needs no escapes stays as it is -/
def escape (s : String) : String :=
  let cs := s.toList
  if cs.all isWrittenPlain then s else String.ofList (cs.flatMap escapeChar)

theorem escapeChar_of_isWrittenPlain {c : Char} (h : isWrittenPlain c) : escapeChar c = [c] := by
  have below {d : Char} (hd : d.toNat < 0x20) : c ≠ d := fun e => by
    subst e
    simp [isWrittenPlain] at h
    omega
  simp only [isWrittenPlain, Bool.and_eq_true, bne_iff_ne, decide_eq_true_eq] at h
  obtain ⟨⟨hq, hb⟩, hn⟩ := h
  rw [escapeChar, if_neg hq, if_neg hb, if_neg (below (by decide)), if_neg (below (by decide)),
    if_neg (below (by decide)), if_neg (below (by decide)), if_neg (below (by decide)),
    if_neg (by omega)]

/-- whichever way it is written, every character is escaped on its own -/
theorem toList_escape (s : String) : (escape s).toList = s.toList.flatMap escapeChar := by
  rw [escape]
  split
  · rename_i h
    have plain : ∀ cs : List Char, cs.all isWrittenPlain → cs.flatMap escapeChar = cs := by
      intro cs
      induction cs with
      | nil => simp
      | cons c cs ih =>
        intro h
        rw [List.all_cons, Bool.and_eq_true] at h
        rw [List.flatMap_cons, escapeChar_of_isWrittenPlain h.1, ih h.2, List.singleton_append]
    exact (plain _ h).symm
  · exact String.toList_ofList
def quote (s : String) : String := "\"" ++ escape s ++ "\""

/-- a new line at the given level -/
def newLine (level : Nat) : String := "\n" ++ String.ofList (List.replicate (2 * level) ' ')

mutual

/-- a value that stands at the given level; what is no text is written as an empty string -/
def prettyAt (level : Nat) : Json → String
  | null => "null"
  | bool b => if b then "true" else "false"
  | number l => String.ofList l
  | string s => quote (s.getD "")
  | array [] => "[]"
  | array (x :: xs) =>
    "[" ++ newLine (level + 1) ++ prettyAt (level + 1) x ++
      String.join (prettyElements (level + 1) xs) ++ newLine level ++ "]"
  | object [] => "\x7b\x7d"
  | object ((k, x) :: ms) =>
    "\x7b" ++ newLine (level + 1) ++ quote (k.getD "") ++ ": " ++ prettyAt (level + 1) x ++
      String.join (prettyMembers (level + 1) ms) ++ newLine level ++ "\x7d"

/-- the elements of an array after the first, each on a line of its own -/
def prettyElements (level : Nat) : List Json → List String
  | [] => []
  | x :: xs => ("," ++ newLine level ++ prettyAt level x) :: prettyElements level xs

/-- the members of an object after the first, each on a line of its own -/
def prettyMembers (level : Nat) : List (Option String × Json) → List String
  | [] => []
  | (k, x) :: ms =>
    ("," ++ newLine level ++ quote (k.getD "") ++ ": " ++ prettyAt level x) ::
      prettyMembers level ms

end

/-- a value as a text of several lines, without a line feed at its end -/
def pretty (x : Json) : String := prettyAt 0 x

end ContractAudit.Json
