/-!
# Digits

The ten ASCII digits, the number that a row of them spells, and hexadecimal digits.
-/

namespace ContractAudit.Text

def isDigit (c : Char) : Bool := '0' ≤ c && c ≤ '9'

/-- the number that digits spell -/
def ofDigits (ds : List Char) : Nat := ds.foldl (fun n c => n * 10 + (c.toNat - 48)) 0

/-- the hexadecimal digit of a number below 16, in lower case -/
def hexDigit (n : Nat) : Char := if n < 10 then Char.ofNat (48 + n) else Char.ofNat (87 + n)

end ContractAudit.Text
