/-!
# Contiguous factors of a text

A text is searched as the list of its characters.

* `startsWith p s`: `s` begins with `p`.
* `hasFactor p s`: `p` stands somewhere in `s`, without a gap.
* `hasAnyFactor ps s`: one of the words `ps` does.
* `words`: the words of strings.

The main statement is `hasFactor_iff`: `hasFactor p s` decides `p <:+: s`.
-/

namespace ContractAudit.Text

def startsWith (p s : List Char) : Bool := p.isPrefixOf s

def hasFactor (p : List Char) : List Char → Bool
  | [] => p.isEmpty
  | c :: s => startsWith p (c :: s) || hasFactor p s

def hasAnyFactor (ps : List (List Char)) (s : List Char) : Bool := ps.any fun p => hasFactor p s

def words (ss : List String) : List (List Char) := ss.map String.toList

theorem startsWith_iff {p s : List Char} : startsWith p s ↔ p <+: s :=
  List.isPrefixOf_iff_prefix

theorem hasFactor_iff {p s : List Char} : hasFactor p s ↔ p <:+: s := by
  induction s with
  | nil => simp [hasFactor]
  | cons c s ih => simp [hasFactor, startsWith_iff, ih, List.infix_cons_iff]

theorem hasAnyFactor_iff {ps : List (List Char)} {s : List Char} :
    hasAnyFactor ps s ↔ ∃ p ∈ ps, p <:+: s := by
  simp [hasAnyFactor, hasFactor_iff]

end ContractAudit.Text
