import ContractAudit.Json.Value
import ContractAudit.Text.Digits

/-!
# Reading JSON

A text is cut into words, and the words are put together to a value.

* `Json.lex`: the words of a text; white space between them does not count.
* `Json.ofTokens?`: the value that some words spell.
* `Json.parse`: the value of a text.

There is no limit to the nesting: every value inside another begins with a word of its own, so
the number of words is fuel enough.
-/

namespace ContractAudit.Json

open Text (isDigit)

/-- the white space of the notation -/
def isSpace (c : Char) : Bool := c == ' ' || c == '\t' || c == '\n' || c == '\r'

/-! ## Strings -/

/-- what stands in a string: a character as such, or an escaped code unit of 16 bits -/
inductive Unit16
  | char (c : Char)
  | unit (n : Nat)

def hexDigit? (c : Char) : Option Nat :=
  if '0' ≤ c ∧ c ≤ '9' then some (c.toNat - '0'.toNat)
  else if 'a' ≤ c ∧ c ≤ 'f' then some (c.toNat - 'a'.toNat + 10)
  else if 'A' ≤ c ∧ c ≤ 'F' then some (c.toNat - 'A'.toNat + 10)
  else none

/-- the character that an escape with a single letter stands for -/
def shortEscape? (c : Char) : Option Char :=
  match c with
  | '"' => some '"'
  | '\\' => some '\\'
  | '/' => some '/'
  | 'b' => some '\x08'
  | 'f' => some '\x0c'
  | 'n' => some '\n'
  | 'r' => some '\r'
  | 't' => some '\t'
  | _ => none

/-- the content of a string whose opening quote is read, and what comes after its closing quote;
`done` is what is already read, backwards -/
def lexString (done : List Unit16) : List Char → Option (List Unit16 × List Char)
  | [] => none
  | '"' :: s => some (done.reverse, s)
  | '\\' :: 'u' :: a :: b :: c :: d :: s => do
    let a ← hexDigit? a
    let b ← hexDigit? b
    let c ← hexDigit? c
    let d ← hexDigit? d
    lexString (.unit (((a * 16 + b) * 16 + c) * 16 + d) :: done) s
  | '\\' :: e :: s => do
    let c ← shortEscape? e
    lexString (.char c :: done) s
  | c :: s => if c.toNat < 0x20 || c == '\\' then none else lexString (.char c :: done) s

/-- the text that the content of a string spells; surrogates have to come in pairs -/
def decodeUnits : List Unit16 → Option (List Char)
  | [] => some []
  | .char c :: us => (decodeUnits us).map (c :: ·)
  | .unit n :: us =>
    if n < 0xD800 ∨ 0xDFFF < n then (decodeUnits us).map (Char.ofNat n :: ·)
    else match us with
      | .unit m :: us =>
        if n < 0xDC00 ∧ 0xDC00 ≤ m ∧ m ≤ 0xDFFF then
          (decodeUnits us).map (Char.ofNat ((n - 0xD800) * 0x400 + (m - 0xDC00) + 0x10000) :: ·)
        else none
      | _ => none

/-! ## Numbers -/

/-- the digits in front of a text, and what comes after them -/
def spanDigits (s : List Char) : List Char × List Char := (s.takeWhile isDigit, s.dropWhile isDigit)

/-- the whole part of a number: one zero, or digits that do not begin with zero -/
def lexWhole : List Char → Option (List Char × List Char)
  | '0' :: s => some (['0'], s)
  | s =>
    match spanDigits s with
    | ([], _) => none
    | (ds, r) => some (ds, r)

/-- the fraction of a number with its point; there may be none -/
def lexFraction : List Char → Option (List Char × List Char)
  | '.' :: s =>
    match spanDigits s with
    | ([], _) => none
    | (ds, r) => some ('.' :: ds, r)
  | s => some ([], s)

/-- the exponent of a number with its mark; there may be none -/
def lexExponent : List Char → Option (List Char × List Char)
  | e :: s =>
    if e = 'e' ∨ e = 'E' then
      let (mark, s) := match s with
        | '+' :: r => ([e, '+'], r)
        | '-' :: r => ([e, '-'], r)
        | _ => ([e], s)
      match spanDigits s with
      | ([], _) => none
      | (ds, r) => some (mark ++ ds, r)
    else some ([], e :: s)
  | [] => some ([], [])

/-- a number without its sign -/
def lexUnsigned (s : List Char) : Option (List Char × List Char) := do
  let (whole, s) ← lexWhole s
  let (fraction, s) ← lexFraction s
  let (exponent, s) ← lexExponent s
  return (whole ++ fraction ++ exponent, s)

/-- a number, as long as it goes -/
def lexNumber : List Char → Option (List Char × List Char)
  | '-' :: s => (lexUnsigned s).map fun (l, r) => ('-' :: l, r)
  | s => lexUnsigned s

/-! ## Words -/

/-- the rest of a text after a word that it begins with -/
def dropWord (w : String) (s : List Char) : Option (List Char) :=
  if w.toList.isPrefixOf s then some (s.drop w.length) else none

/-- the first word of a text that begins with no white space, and the rest -/
def lexToken : List Char → Option (Token × List Char)
  | [] => none
  | '{' :: s => some (.openBrace, s)
  | '}' :: s => some (.closeBrace, s)
  | '[' :: s => some (.openBracket, s)
  | ']' :: s => some (.closeBracket, s)
  | ',' :: s => some (.comma, s)
  | ':' :: s => some (.colon, s)
  | '"' :: s => (lexString [] s).map fun (us, r) => (.string ((decodeUnits us).map String.ofList), r)
  | c :: s =>
    if c = 'n' then (dropWord "null" (c :: s)).map (Token.null, ·)
    else if c = 't' then (dropWord "true" (c :: s)).map (Token.bool true, ·)
    else if c = 'f' then (dropWord "false" (c :: s)).map (Token.bool false, ·)
    else (lexNumber (c :: s)).map fun (l, r) => (.number l, r)

/-- the words of a text, read with at most as many steps as it has characters -/
def lexSteps : Nat → List Token → List Char → Option (List Token)
  | _, done, [] => some done.reverse
  | 0, _, _ :: _ => none
  | n + 1, done, c :: s =>
    if isSpace c then lexSteps n done s
    else match lexToken (c :: s) with
      | none => none
      | some (t, r) => lexSteps n (t :: done) r

def lex (s : List Char) : Option (List Token) := lexSteps s.length [] s

/-! ## Values -/

mutual

/-- a value in front of some words, and the words after it -/
def readValue : Nat → List Token → Option (Json × List Token)
  | 0, _ => none
  | _, [] => none
  | _ + 1, .null :: ts => some (.null, ts)
  | _ + 1, .bool b :: ts => some (.bool b, ts)
  | _ + 1, .number l :: ts => some (.number l, ts)
  | _ + 1, .string s :: ts => some (.string s, ts)
  | _ + 1, .openBracket :: .closeBracket :: ts => some (.array [], ts)
  | n + 1, .openBracket :: ts => (readElements n [] ts).map fun (xs, r) => (.array xs, r)
  | _ + 1, .openBrace :: .closeBrace :: ts => some (.object [], ts)
  | n + 1, .openBrace :: ts => (readMembers n [] ts).map fun (ms, r) => (.object ms, r)
  | _, _ => none

/-- one or more elements and the closing bracket; `done` holds those before, backwards -/
def readElements : Nat → List Json → List Token → Option (List Json × List Token)
  | 0, _, _ => none
  | n + 1, done, ts =>
    match readValue n ts with
    | some (x, .comma :: r) => readElements n (x :: done) r
    | some (x, .closeBracket :: r) => some ((x :: done).reverse, r)
    | _ => none

/-- one or more members and the closing brace; `done` holds those before, backwards -/
def readMembers : Nat → List (Option String × Json) → List Token →
    Option (List (Option String × Json) × List Token)
  | 0, _, _ => none
  | n + 1, done, .string k :: .colon :: ts =>
    match readValue n ts with
    | some (x, .comma :: r) => readMembers n ((k, x) :: done) r
    | some (x, .closeBrace :: r) => some (((k, x) :: done).reverse, r)
    | _ => none
  | _, _, _ => none

end

/-- the value that the words spell, all of them -/
def ofTokens? (ts : List Token) : Option Json :=
  match readValue ts.length ts with
  | some (x, []) => some x
  | _ => none

def parse (s : String) : Option Json := (lex s.toList).bind ofTokens?

end ContractAudit.Json
