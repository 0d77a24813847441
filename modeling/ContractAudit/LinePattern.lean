import ContractAudit.Piece

/-!
# Line patterns

What a rule looks for in a line: a choice between sequences of pieces.

* `LinePattern`: the choice.
* `LinePattern.firesOn p l`: somewhere in the line `l` stands a factor that one of the sequences
  reads.

The search goes through the line once.  It keeps the sequences that still have to be read, each
of them a tail of the pattern, and starts the pattern anew at every character.
-/

namespace ContractAudit

/-- a choice between sequences of pieces -/
structure LinePattern where
  branches : List (List Piece)
  deriving DecidableEq

namespace LinePattern

/-- one of the sequences in `active` can be read from here, or one of `start` further on -/
def search (start active : List (List Piece)) : List Char → Bool
  | [] => active.any Piece.canEnd
  | c :: s =>
    active.any Piece.canEnd || search start (start ++ (active.flatMap (Piece.advance c))).eraseDups s

/-- the pattern reads some factor of the line -/
def firesOn (p : LinePattern) (line : List Char) : Bool := search p.branches p.branches line

/-- the letters of a word, exactly as written -/
def exact (s : String) : List Piece := s.toList.map fun c => .one (.exactly c)

/-- the letters of a word, in either case -/
def anyCase (s : String) : List Piece := s.toList.map fun c => .one (.folded c)

/-- any amount of white space -/
def blanks : List Piece := [.many .blank]

/-- a pattern without a choice -/
def seq (ps : List Piece) : LinePattern := ⟨[ps]⟩

end LinePattern

end ContractAudit
