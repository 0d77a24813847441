import ContractAudit.Toml.Word

/-!
# Strings of TOML

A string stands in single or double quotes, one of them on one line or three on any number of
lines.  Only in double quotes are there escapes.

* `Toml.isPlain`: a character that may stand in a string as it is.
* `Toml.readBasic`, `Toml.readLiteral`: strings on one line.
* `Toml.readLongBasic`, `Toml.readLongLiteral`: strings on any number of lines.
* `Toml.readString`: any of them.

A number `n` in front of a text bounds the steps of reading; no text needs more steps than it has
characters.
-/

namespace ContractAudit.Toml

/-- no control character, apart from the tab -/
def isPlain (c : Char) : Bool := c == '\t' || (0x20 ≤ c.toNat && c.toNat != 0x7F)

/-- white space on a line -/
def isBlankOnLine (c : Char) : Bool := c == ' ' || c == '\t'

/-- the rest of a text after a line end -/
def dropLineEnd : List Char → Option (List Char)
  | '\n' :: s => some s
  | '\r' :: '\n' :: s => some s
  | _ => none

/-- the rest of a text after white space and line ends -/
def dropBlankLines : Nat → List Char → List Char
  | 0, s => s
  | n + 1, s =>
    match s.dropWhile isBlankOnLine with
    | '\n' :: r => dropBlankLines n r
    | '\r' :: '\n' :: r => dropBlankLines n r
    | r => r

/-- the character with the code point that hexadecimal digits spell -/
def ofCodePoint? (ds : List Char) : Option Char :=
  match countOfBase? 16 ds with
  | some n => if ds.all isHexDigit ∧ n.isValidChar then some (Char.ofNat n) else none
  | none => none

/-- the character whose code point `n` digits spell, and the rest -/
def readCodePoint (n : Nat) (s : List Char) : Option (Char × List Char) :=
  let ds := s.take n
  if ds.length < n then none else (ofCodePoint? ds).map (·, s.drop n)

/-- the character of an escape whose backslash is read, and the rest -/
def readEscape : List Char → Option (Char × List Char)
  | 'b' :: s => some ('\x08', s)
  | 't' :: s => some ('\t', s)
  | 'n' :: s => some ('\n', s)
  | 'f' :: s => some ('\x0c', s)
  | 'r' :: s => some ('\r', s)
  | '"' :: s => some ('"', s)
  | '\\' :: s => some ('\\', s)
  | 'u' :: s => readCodePoint 4 s
  | 'U' :: s => readCodePoint 8 s
  | _ => none

/-- a string on one line up to its double quote; `done` is what is read, backwards -/
def readBasic : Nat → List Char → List Char → Option (List Char × List Char)
  | 0, _, _ => none
  | _, _, [] => none
  | n + 1, done, c :: s =>
    if c = '"' then some (done.reverse, s)
    else if c = '\\' then do
      let (e, r) ← readEscape s
      readBasic n (e :: done) r
    else if isPlain c then readBasic n (c :: done) s
    else none

/-- a string on one line up to its single quote -/
def readLiteral (s : List Char) : Option (List Char × List Char) :=
  let content := s.takeWhile fun c => isPlain c && c != '\''
  match s.drop content.length with
  | '\'' :: r => some (content, r)
  | _ => none

/-- how many quotes stand in front of a text, five at the most -/
def countQuotes (quote : Char) (s : List Char) : Nat := ((s.take 5).takeWhile (· == quote)).length

/-- a string up to its three double quotes, before which there may be one or two more -/
def readLongBasic : Nat → List Char → List Char → Option (List Char × List Char)
  | 0, _, _ => none
  | _, _, [] => none
  | n + 1, done, c :: s =>
    if c = '"' then
      let k := countQuotes '"' (c :: s)
      if 3 ≤ k then some (done.reverse ++ List.replicate (k - 3) '"', s.drop (k - 1))
      else readLongBasic n (c :: done) s
    else if c = '\\' then
      match dropLineEnd (s.dropWhile isBlankOnLine) with
      | some r => readLongBasic n done (dropBlankLines n r)
      | none => do
        let (e, r) ← readEscape s
        readLongBasic n (e :: done) r
    else match dropLineEnd (c :: s) with
      | some r => readLongBasic n ('\n' :: done) r
      | none => if isPlain c then readLongBasic n (c :: done) s else none

/-- a string up to its three single quotes, before which there may be one or two more -/
def readLongLiteral : Nat → List Char → List Char → Option (List Char × List Char)
  | 0, _, _ => none
  | _, _, [] => none
  | n + 1, done, c :: s =>
    if c = '\'' then
      let k := countQuotes '\'' (c :: s)
      if 3 ≤ k then some (done.reverse ++ List.replicate (k - 3) '\'', s.drop (k - 1))
      else readLongLiteral n (c :: done) s
    else match dropLineEnd (c :: s) with
      | some r => readLongLiteral n ('\n' :: done) r
      | none => if isPlain c then readLongLiteral n (c :: done) s else none

/-- the rest of a text after a line end that it may begin with -/
def skipLineEnd (s : List Char) : List Char := (dropLineEnd s).getD s

/-- a string of any kind, and the rest; nothing if the text begins with no quote -/
def readString (n : Nat) (s : List Char) : Option (List Char × List Char) :=
  match s with
  | '"' :: '"' :: '"' :: r => readLongBasic n [] (skipLineEnd r)
  | '\'' :: '\'' :: '\'' :: r => readLongLiteral n [] (skipLineEnd r)
  | '"' :: r => readBasic n [] r
  | '\'' :: r => readLiteral r
  | _ => none

end ContractAudit.Toml
