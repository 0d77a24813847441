/-!
# White space

`isBlank` is the Unicode property White_Space, and `trim` takes such characters off both ends of
a text.
-/

namespace ContractAudit.Text

/-- the Unicode property White_Space -/
def isBlank (c : Char) : Bool :=
  let n := c.toNat
  (0x09 ≤ n && n ≤ 0x0D) || n == 0x20 || n == 0x85 || n == 0xA0 || n == 0x1680 ||
    (0x2000 ≤ n && n ≤ 0x200A) || n == 0x2028 || n == 0x2029 || n == 0x202F || n == 0x205F ||
    n == 0x3000

/-- the text without the white space in front of it -/
def trimStart (s : List Char) : List Char := s.dropWhile isBlank

/-- the text without the white space behind it -/
def trimEnd (s : List Char) : List Char := (s.reverse.dropWhile isBlank).reverse

def trim (s : List Char) : List Char := trimEnd (trimStart s)

theorem trim_sublist (s : List Char) : (trim s).Sublist s := by
  have h : (trimStart s).Sublist s := List.dropWhile_sublist _
  refine List.Sublist.trans ?_ h
  rw [trim, trimEnd, ← List.reverse_sublist, List.reverse_reverse]
  exact List.dropWhile_sublist _

theorem any_dropWhile_isBlank (s : List Char) :
    (s.dropWhile isBlank).any (!isBlank ·) = s.any (!isBlank ·) := by
  rw [List.any_dropWhile, List.not_all_eq_any_not]

theorem any_trim (s : List Char) : (trim s).any (!isBlank ·) = s.any (!isBlank ·) := by
  rw [trim, trimEnd, List.any_reverse, any_dropWhile_isBlank, List.any_reverse, trimStart,
    any_dropWhile_isBlank]

/-- a text that is not all white space is not trimmed away -/
theorem trim_ne_nil {s : List Char} {c : Char} (hc : c ∈ s) (hb : ¬ isBlank c) : trim s ≠ [] := by
  intro h
  have hany : s.any (!isBlank ·) := List.any_eq_true.2 ⟨c, hc, by simpa using hb⟩
  rw [← any_trim, h] at hany
  exact absurd hany (by simp)

end ContractAudit.Text
