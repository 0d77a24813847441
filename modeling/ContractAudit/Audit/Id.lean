import ContractAudit.Path
import ContractAudit.Sha256
import ContractAudit.Time.Rfc3339

/-!
# The id of an audit

An audit is known by the second in which it starts, and by the first six hexadecimal digits of a
hash of the instant and the path of the project.
-/

namespace ContractAudit

/-- the bytes of a number of 64 bits with a sign, the lowest first -/
def littleEndian64 (n : Int) : List UInt8 :=
  [0, 8, 16, 24, 32, 40, 48, 56].map fun k => UInt8.ofNat ((n % (maxCount + 1)).toNat >>> k)

def hexText (bytes : List UInt8) : String :=
  String.ofList (bytes.flatMap fun b => [Text.hexDigit (b.toNat / 16), Text.hexDigit (b.toNat % 16)])

/-- the hash of an instant and a path, of which the id has the first three bytes -/
def auditHash (start : Instant) (project : Path) : List UInt8 :=
  Sha256.hash (littleEndian64 start.epochNanos ++ project.text.toUTF8.toList)

def auditId (start : Instant) (project : Path) : String :=
  "AUDIT_" ++ start.stamp ++ "_" ++ hexText ((auditHash start project).take 3)

end ContractAudit
