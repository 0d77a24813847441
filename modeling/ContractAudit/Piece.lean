import ContractAudit.Text.Blank
import ContractAudit.Text.WordChar

/-!
# Pieces of patterns

A pattern is a sequence of pieces, each of which reads one character of a class or any number of
them.

* `CharClass`, `CharClass.admits`: the classes of characters, and their members.
* `Piece`: one character of a class, or a run of them.
* `Reads ps w`: the sequence `ps` reads the whole of `w`.  This is the meaning of a pattern.
* `Piece.advance c ps`: what is left to read of `ps` after the character `c`.
* `Piece.rowOf ps w`: which tails of `ps` read `w`.
* `Piece.matchesAll ps w`: the sequence `ps` reads `w`.  Each character of `w` is compared with each
  piece once.
-/

namespace ContractAudit

open Text

/-- a class of characters -/
inductive CharClass
  /-- this character alone -/
  | exactly (c : Char)
  /-- a small ASCII letter and whatever folds to it -/
  | folded (c : Char)
  /-- white space -/
  | blank
  /-- the characters of words -/
  | word
  /-- all but this character -/
  | except (c : Char)
  /-- from one of these first characters to its last -/
  | within (ranges : List (Char × Char))
  /-- outside all these ranges -/
  | outside (ranges : List (Char × Char))
  deriving DecidableEq

/-- the simple case folding of the characters that fold into ASCII: the letters A to Z, the long
s and the Kelvin sign; every other character stays as it is -/
def foldCase (c : Char) : Char :=
  if 'A' ≤ c ∧ c ≤ 'Z' then Char.ofNat (c.toNat + 32)
  else if c = '\u017F' then 's'
  else if c = '\u212A' then 'k'
  else c

def CharClass.admits : CharClass → Char → Bool
  | exactly a, c => c == a
  | folded a, c => foldCase c == a
  | blank, c => isBlank c
  | word, c => isWordChar c
  | except a, c => c != a
  | within rs, c => rs.any fun (a, b) => a ≤ c && c ≤ b
  | outside rs, c => !(rs.any fun (a, b) => a ≤ c && c ≤ b)

/-- one step of a pattern -/
inductive Piece
  /-- one character of the class -/
  | one (k : CharClass)
  /-- any number of characters of the class -/
  | many (k : CharClass)
  deriving DecidableEq

/-- the sequence of pieces reads exactly these characters -/
inductive Reads : List Piece → List Char → Prop
  | done : Reads [] []
  | one {k : CharClass} {ps : List Piece} {c : Char} {w : List Char} :
      k.admits c → Reads ps w → Reads (.one k :: ps) (c :: w)
  | stop {k : CharClass} {ps : List Piece} {w : List Char} :
      Reads ps w → Reads (.many k :: ps) w
  | more {k : CharClass} {ps : List Piece} {c : Char} {w : List Char} :
      k.admits c → Reads (.many k :: ps) w → Reads (.many k :: ps) (c :: w)

namespace Piece

/-- the sequence can end here: all its pieces may be empty -/
def canEnd : List Piece → Bool
  | [] => true
  | .one _ :: _ => false
  | .many _ :: ps => canEnd ps

/-- what is left to read of a sequence after the character `c` -/
def advance (c : Char) : List Piece → List (List Piece)
  | [] => []
  | .one k :: ps => if k.admits c then [ps] else []
  | .many k :: ps => if k.admits c then (.many k :: ps) :: advance c ps else advance c ps

/-- for each tail of a sequence, from the longest to the empty one: it reads an empty text -/
def emptyRow : List Piece → List Bool
  | [] => [true]
  | .one _ :: ps => false :: emptyRow ps
  | .many _ :: ps =>
    let row := emptyRow ps
    row.headD false :: row

/-- for each tail of a sequence: it reads the character `c` and a text after it, if the row tells
which tails read that text alone -/
def rowBefore (c : Char) : List Piece → List Bool → List Bool
  | .one k :: ps, _ :: row => (k.admits c && row.headD false) :: rowBefore c ps row
  | .many k :: ps, again :: row =>
    let later := rowBefore c ps row
    (later.headD false || (k.admits c && again)) :: later
  | _, _ => [false]

/-- for each tail of a sequence: it reads the whole text -/
def rowOf (ps : List Piece) (s : List Char) : List Bool :=
  s.foldr (fun c row => rowBefore c ps row) (emptyRow ps)

/-- the sequence reads the whole text -/
def matchesAll (ps : List Piece) (s : List Char) : Bool := (rowOf ps s).headD false

end Piece

end ContractAudit
