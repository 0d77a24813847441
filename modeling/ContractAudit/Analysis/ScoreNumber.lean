/-!
# Numbers for scores

A score is a formula in counts.  It is written once for every kind of number that has the four
operations and the smaller and larger of two numbers, so that it can be computed in floating
point and reasoned about exactly.
-/

namespace ContractAudit

/-- the numbers in which a score can be computed -/
class ScoreNumber (α : Type) where
  ofCount : Nat → α
  add : α → α → α
  sub : α → α → α
  mul : α → α → α
  div : α → α → α
  smaller : α → α → α
  larger : α → α → α

instance : ScoreNumber Float where
  ofCount := Float.ofNat
  add := (· + ·)
  sub := (· - ·)
  mul := (· * ·)
  div := (· / ·)
  smaller a b := if a ≤ b then a else b
  larger a b := if a ≤ b then b else a

namespace ScoreNumber

variable {α : Type} [ScoreNumber α]

/-- the score `x`, but at most 100 -/
def atMostHundred (x : α) : α := smaller x (ofCount 100)

/-- the score `x`, but at least 0 -/
def atLeastZero (x : α) : α := larger x (ofCount 0)

end ScoreNumber

end ContractAudit
