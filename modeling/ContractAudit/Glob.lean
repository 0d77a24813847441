import ContractAudit.Piece

/-!
# File-name patterns

A pattern for names: `?` stands for any character, `*` for any number of them, and brackets for
one character of a set, or of none of a set that begins with `!`.  Two stars stand for any number
of directories, so they have to be a whole component of a path; a name is one component and has
no directory in front of it.

* `Glob.Token`: what a pattern is made of.
* `GlobError`: why a text is no pattern, and where.
* `Glob.parse`: the pattern of a text.
* `Glob.Pattern.matchesName`: a name fits a pattern.
-/

namespace ContractAudit

/-- why a text is no pattern -/
inductive GlobError.Cause
  | tooManyStars
  | starsInComponent
  | invalidRange
  deriving DecidableEq

/-- why a text is no pattern, and near which character -/
structure GlobError where
  position : Nat
  cause : GlobError.Cause
  deriving DecidableEq

namespace GlobError

def Cause.message : Cause → String
  | tooManyStars => "wildcards are either regular `*` or recursive `**`"
  | starsInComponent => "recursive wildcards must form a single path component"
  | invalidRange => "invalid range pattern"

def message (e : GlobError) : String :=
  "Pattern syntax error near position " ++ toString e.position ++ ": " ++ e.cause.message

end GlobError

namespace Glob

/-- what a pattern is made of -/
inductive Token
  | char (c : Char)
  | anyChar
  | anySequence
  | anyDirectories
  | within (ranges : List (Char × Char))
  | outside (ranges : List (Char × Char))
  deriving DecidableEq

/-- the ranges of a set; three characters with a dash in the middle are one range -/
def ranges : List Char → List (Char × Char)
  | a :: '-' :: b :: s => (a, b) :: ranges s
  | a :: s => (a, a) :: ranges s
  | [] => []

/-- the set in front of a text, up to its closing bracket, and the rest; a bracket at once after
the opening belongs to the set -/
def readSet : List Char → Option (List Char × List Char)
  | [] => none
  | a :: s =>
    match s.dropWhile (· != ']') with
    | [] => none
    | _ :: r => some (a :: s.takeWhile (· != ']'), r)

theorem length_of_readSet {s x r : List Char} (h : readSet s = some (x, r)) :
    r.length < s.length := by
  cases s with
  | nil => simp [readSet] at h
  | cons a s =>
    rw [readSet] at h
    split at h
    · simp at h
    · rename_i b r' hr
      obtain ⟨rfl, rfl⟩ := Prod.mk.injEq .. ▸ Option.some.injEq .. ▸ h
      have := (List.dropWhile_sublist (· != ']') (l := s)).length_le
      simp [hr] at this ⊢
      omega

/-- the tokens of a text that stands at the given position, after the character `before` -/
def parseAt (position : Nat) (before : Option Char) (s : List Char) :
    Except GlobError (List Token) :=
  match s with
  | [] => .ok []
  | '?' :: r => (parseAt (position + 1) (some '?') r).map (.anyChar :: ·)
  | '*' :: '*' :: '*' :: _ => .error ⟨position + 2, .tooManyStars⟩
  | '*' :: '*' :: r =>
    if before = none ∨ before = some '/' then
      match r with
      | [] => .ok [.anyDirectories]
      | c :: r =>
        if c = '/' then (parseAt (position + 3) (some '/') r).map (.anyDirectories :: ·)
        else .error ⟨position + 2, .starsInComponent⟩
    else .error ⟨position - 1, .starsInComponent⟩
  | '*' :: r => (parseAt (position + 1) (some '*') r).map (.anySequence :: ·)
  | '[' :: '!' :: r =>
    match h : readSet r with
    | none => .error ⟨position, .invalidRange⟩
    | some (x, t) =>
      (parseAt (position + x.length + 3) (some ']') t).map (.outside (ranges x) :: ·)
  | '[' :: r =>
    match h : readSet r with
    | none => .error ⟨position, .invalidRange⟩
    | some (x, t) =>
      (parseAt (position + x.length + 2) (some ']') t).map (.within (ranges x) :: ·)
  | c :: r => (parseAt (position + 1) (some c) r).map (.char c :: ·)
termination_by s.length
decreasing_by
  all_goals grind [→ length_of_readSet]

/-- a pattern for names -/
structure Pattern where
  tokens : List Token
  deriving DecidableEq

def parse (text : String) : Except GlobError Pattern :=
  (parseAt 0 none text.toList).map Pattern.mk

/-- what the tokens read of a name; directories can only be there behind all else -/
def pieces : List Token → List Piece
  | [] => []
  | .char c :: ts => .one (.exactly c) :: pieces ts
  | .anyChar :: ts => .one (.outside []) :: pieces ts
  | .anySequence :: ts => .many (.outside []) :: pieces ts
  | .anyDirectories :: ts => if ts.isEmpty then [.many (.outside [])] else pieces ts
  | .within rs :: ts => .one (.within rs) :: pieces ts
  | .outside rs :: ts => .one (.outside rs) :: pieces ts

def Pattern.matchesName (p : Pattern) (name : String) : Bool :=
  Piece.matchesAll (pieces p.tokens) name.toList

end Glob

end ContractAudit
