/-!
# JSON values

* `Json`: a value.  Numbers keep their spelling.  A string whose escapes pair no surrogate is no
  text, and is kept as `none`; it can only be passed over.
* `Token`: the words of the notation.
* `Json.tokens`: the one sequence of words that a value is written with.
-/

namespace ContractAudit

/-- a JSON value -/
inductive Json
  | null
  | bool (b : Bool)
  | number (lexeme : List Char)
  | string (s : Option String)
  | array (xs : List Json)
  | object (ms : List (Option String × Json))

namespace Json

/-- a word of the notation -/
inductive Token
  | openBrace
  | closeBrace
  | openBracket
  | closeBracket
  | comma
  | colon
  | null
  | bool (b : Bool)
  | number (lexeme : List Char)
  | string (s : Option String)
  deriving DecidableEq

mutual

def tokens : Json → List Token
  | null => [.null]
  | bool b => [.bool b]
  | number l => [.number l]
  | string s => [.string s]
  | array xs => .openBracket :: (elementTokens xs ++ [.closeBracket])
  | object ms => .openBrace :: (memberTokens ms ++ [.closeBrace])

/-- the words of the elements of an array, with commas between them -/
def elementTokens : List Json → List Token
  | [] => []
  | [x] => tokens x
  | x :: y :: xs => tokens x ++ .comma :: elementTokens (y :: xs)

/-- the words of the members of an object, with commas between them -/
def memberTokens : List (Option String × Json) → List Token
  | [] => []
  | [(k, x)] => .string k :: .colon :: tokens x
  | (k, x) :: m :: ms => .string k :: .colon :: (tokens x ++ .comma :: memberTokens (m :: ms))

end

def text (s : String) : Json := .string (some s)

/-- an object whose keys are texts -/
def record (ms : List (String × Json)) : Json := .object (ms.map fun (k, v) => (some k, v))

end Json

end ContractAudit
