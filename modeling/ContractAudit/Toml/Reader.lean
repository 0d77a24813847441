import ContractAudit.Toml.Quoted

/-!
# Reading TOML

A document is read line by line.  A heading begins a table, and the pairs after it belong to that
table.

* `Toml.readKey`: a key, with its parts between dots.
* `Toml.readValue`: a value; values are nested less than eighty deep.
* `Toml.parse`: the table of a document.

A number `n` in front of a text bounds the steps of reading.  Every step takes a character at least,
or leads into a value, so twice the length of the document suffices for all of it.
-/

namespace ContractAudit.Toml

/-- the nesting that is too deep, of values and of the parts of a key -/
def depthLimit : Nat := 80

/-- the rest of a text after white space on its line -/
def skipBlanks (s : List Char) : List Char := s.dropWhile isBlankOnLine

/-! ## Keys -/

/-- a character of a key without quotes -/
def isBareKeyChar (c : Char) : Bool :=
  ('a' ≤ c && c ≤ 'z') || ('A' ≤ c && c ≤ 'Z') || ('0' ≤ c && c ≤ '9') || c == '_' || c == '-'

/-- one part of a key, and the rest -/
def readKeyPart (n : Nat) (s : List Char) : Option (String × List Char) :=
  match s with
  | '"' :: r => (readBasic n [] r).map fun (k, r) => (String.ofList k, r)
  | '\'' :: r => (readLiteral r).map fun (k, r) => (String.ofList k, r)
  | s =>
    let k := s.takeWhile isBareKeyChar
    if k.isEmpty then none else some (String.ofList k, s.drop k.length)

/-- the parts of a key, with white space around each, and the rest -/
def readKeyParts : Nat → List Char → Option (List String × List Char)
  | 0, _ => none
  | n + 1, s => do
    let (k, s) ← readKeyPart n (skipBlanks s)
    match skipBlanks s with
    | '.' :: r => do
      let (ks, r) ← readKeyParts n r
      return (k :: ks, r)
    | r => return ([k], r)

/-- a key: the parts before the last dot, the last part, and the rest of the text -/
def readKey (n : Nat) (s : List Char) : Option (List String × String × List Char) := do
  let (ks, s) ← readKeyParts n s
  if depthLimit ≤ ks.length then none
  let k ← ks.getLast?
  return (ks.dropLast, k, s)

/-! ## Values -/

/-- the rest of a text after a comment, which may not be there -/
def skipComment (s : List Char) : List Char :=
  match s with
  | '#' :: r => r.dropWhile isPlain
  | s => s

/-- the rest of a text after white space, comments and line ends -/
def skipBetween : Nat → List Char → List Char
  | 0, s => s
  | n + 1, s =>
    let r := skipComment (skipBlanks s)
    match dropLineEnd r with
    | some r => skipBetween n r
    | none => r

def endsWord (c : Char) : Bool :=
  isBlankOnLine c || c == '\n' || c == '\r' || c == '#' || c == ',' || c == ']' || c == '}'

/-- a word, and the rest; a date goes on after a blank if a time follows it -/
def readWord (s : List Char) : List Char × List Char :=
  let word := s.takeWhile (!endsWord ·)
  let rest := s.drop word.length
  match rest with
  | ' ' :: r =>
    let time := r.takeWhile (!endsWord ·)
    if isDate word && (time.drop 2).head? == some ':' then
      (word ++ ' ' :: time, r.drop time.length)
    else (word, rest)
  | _ => (word, rest)

mutual

/-- a value inside `depth` others, and the rest -/
def readValue : Nat → Nat → List Char → Option (Toml × List Char)
  | 0, _, _ => none
  | n + 1, depth, s =>
    match s with
    | '[' :: r =>
      if depthLimit ≤ depth + 1 then none
      else (readElements n (depth + 1) [] r).map fun (xs, r) => (.array xs, r)
    | '{' :: r =>
      if depthLimit ≤ depth + 1 then none
      else match skipBlanks r with
        | '}' :: r => some (.table .closed [], r)
        | r => (readPairs n (depth + 1) [] r).map fun (es, r) => (.table .closed es, r)
    | s =>
      match readString n s with
      | some (t, r) => some (.string (String.ofList t), r)
      | none =>
        let (word, r) := readWord s
        (ofWord? word).map (·, r)

/-- the elements of an array up to its bracket; `done` are those before, backwards -/
def readElements : Nat → Nat → List Toml → List Char → Option (List Toml × List Char)
  | 0, _, _, _ => none
  | n + 1, depth, done, s =>
    match skipBetween n s with
    | ']' :: r => some (done.reverse, r)
    | s =>
      match readValue n depth s with
      | none => none
      | some (x, r) =>
        match skipBetween n r with
        | ',' :: r => readElements n depth (x :: done) r
        | ']' :: r => some ((x :: done).reverse, r)
        | _ => none

/-- one or more pairs up to the closing brace, added to `done` -/
def readPairs : Nat → Nat → Entries → List Char → Option (Entries × List Char)
  | 0, _, _, _ => none
  | n + 1, depth, done, s =>
    match readKey n s with
    | some (path, k, '=' :: r) =>
      match readValue n depth (skipBlanks r) with
      | none => none
      | some (x, r) =>
        match addPair path k x .headed done with
        | none => none
        | some done =>
          match skipBlanks r with
          | ',' :: r => readPairs n depth done r
          | '}' :: r => some (done, r)
          | _ => none
    | _ => none

end

/-! ## Documents -/

/-- the rest of a text after the end of a line, where a comment may stand -/
def readLineEnd (s : List Char) : Option (List Char) :=
  match skipComment (skipBlanks s) with
  | [] => some []
  | r => dropLineEnd r

/-- a document that is read so far: all entries, and the heading of the table that is added to -/
structure Document where
  entries : Entries
  heading : List String

namespace Document

/-- the document after the heading of a table -/
def addHeading (d : Document) (n : Nat) (s : List Char) : Option (Document × List Char) := do
  let (path, k, s) ← readKey n s
  match s with
  | ']' :: s => do
    let entries ← addTable path k d.entries
    let s ← readLineEnd s
    return (⟨entries, path ++ [k]⟩, s)
  | _ => none

/-- the document after a heading in double brackets -/
def addDoubleHeading (d : Document) (n : Nat) (s : List Char) : Option (Document × List Char) := do
  let (path, k, s) ← readKey n s
  match s with
  | ']' :: ']' :: s => do
    let entries ← addElement path k d.entries
    let s ← readLineEnd s
    return (⟨entries, path ++ [k]⟩, s)
  | _ => none

/-- the document after a pair -/
def addKeyValue (d : Document) (n : Nat) (s : List Char) : Option (Document × List Char) := do
  let (path, k, s) ← readKey n s
  match s with
  | '=' :: s => do
    let s := skipBlanks s
    let (x, s) ← readValue n 0 s
    let entries ← update false (addPair path k x) d.heading .headed d.entries
    let s ← readLineEnd s
    return (⟨entries, d.heading⟩, s)
  | _ => none

/-- the document after one line -/
def addLine (d : Document) (n : Nat) (s : List Char) : Option (Document × List Char) :=
  match skipBlanks s with
  | '[' :: '[' :: s => d.addDoubleHeading n s
  | '[' :: s => d.addHeading n s
  | s =>
    match readLineEnd s with
    | some r => some (d, r)
    | none => d.addKeyValue n s

/-- the document after all lines -/
def addLines : Nat → Document → List Char → Option Document
  | _, d, [] => some d
  | 0, _, _ => none
  | n + 1, d, s =>
    match d.addLine n s with
    | some (d, s) => addLines n d s
    | none => none

end Document

/-- the entries of a document; a mark of the byte order in front of it does not count -/
def parse (text : String) : Option Entries :=
  let s := text.toList
  let s := if s.head? = some '\uFEFF' then s.drop 1 else s
  (Document.addLines (2 * s.length + 2) ⟨[], []⟩ s).map (·.entries)

end ContractAudit.Toml
