/-!
# SHA-256

The hash of a row of bytes: the bytes are padded to whole blocks of 64, and block after block is
mixed into eight words.

* `Sha256.pad`: the padded bytes.
* `Sha256.schedule`: the sixty-four words of a block.
* `Sha256.compress`: the words of the hash after one more block.
* `Sha256.hash`: the thirty-two bytes of the hash.
-/

namespace ContractAudit.Sha256

/-- the constants of the sixty-four rounds -/
def roundConstants : List UInt32 := [
  0x428a2f98, 0x71374491, 0xb5c0fbcf, 0xe9b5dba5, 0x3956c25b, 0x59f111f1, 0x923f82a4, 0xab1c5ed5,
  0xd807aa98, 0x12835b01, 0x243185be, 0x550c7dc3, 0x72be5d74, 0x80deb1fe, 0x9bdc06a7, 0xc19bf174,
  0xe49b69c1, 0xefbe4786, 0x0fc19dc6, 0x240ca1cc, 0x2de92c6f, 0x4a7484aa, 0x5cb0a9dc, 0x76f988da,
  0x983e5152, 0xa831c66d, 0xb00327c8, 0xbf597fc7, 0xc6e00bf3, 0xd5a79147, 0x06ca6351, 0x14292967,
  0x27b70a85, 0x2e1b2138, 0x4d2c6dfc, 0x53380d13, 0x650a7354, 0x766a0abb, 0x81c2c92e, 0x92722c85,
  0xa2bfe8a1, 0xa81a664b, 0xc24b8b70, 0xc76c51a3, 0xd192e819, 0xd6990624, 0xf40e3585, 0x106aa070,
  0x19a4c116, 0x1e376c08, 0x2748774c, 0x34b0bcb5, 0x391c0cb3, 0x4ed8aa4a, 0x5b9cca4f, 0x682e6ff3,
  0x748f82ee, 0x78a5636f, 0x84c87814, 0x8cc70208, 0x90befffa, 0xa4506ceb, 0xbef9a3f7, 0xc67178f2]

/-- the eight words of a hash -/
structure Words where
  a : UInt32
  b : UInt32
  c : UInt32
  d : UInt32
  e : UInt32
  f : UInt32
  g : UInt32
  h : UInt32

/-- the words before the first block -/
def start : Words :=
  ⟨0x6a09e667, 0xbb67ae85, 0x3c6ef372, 0xa54ff53a, 0x510e527f, 0x9b05688c, 0x1f83d9ab, 0x5be0cd19⟩

/-- turn a word to the right -/
def turn (x : UInt32) (n : UInt32) : UInt32 := (x >>> n) ||| (x <<< (32 - n))

/-- the bytes of a number of 64 bits, the highest first -/
def bytes64 (n : Nat) : List UInt8 :=
  [56, 48, 40, 32, 24, 16, 8, 0].map fun k => UInt8.ofNat (n >>> k)

/-- the bytes, a one bit, zeros up to a whole number of blocks, and the count of bits -/
def pad (s : List UInt8) : List UInt8 :=
  s ++ 0x80 :: List.replicate ((119 - s.length % 64) % 64) 0 ++ bytes64 (8 * s.length)

/-- the words that bytes make, four by four -/
def toWords : List UInt8 → List UInt32
  | a :: b :: c :: d :: s =>
    ((a.toUInt32 <<< 24) ||| (b.toUInt32 <<< 16) ||| (c.toUInt32 <<< 8) ||| d.toUInt32) :: toWords s
  | _ => []

/-- the next word of a schedule from the sixteen words before it, the last one first -/
def nextWord : List UInt32 → UInt32
  | [_, w2, _, _, _, _, w7, _, _, _, _, _, _, _, w15, w16] =>
    w16 + (turn w15 7 ^^^ turn w15 18 ^^^ (w15 >>> 3)) + w7 +
      (turn w2 17 ^^^ turn w2 19 ^^^ (w2 >>> 10))
  | _ => 0

/-- add `n` words to a schedule, which is kept backwards -/
def extend : Nat → List UInt32 → List UInt32
  | 0, ws => ws
  | n + 1, ws => extend n (nextWord (ws.take 16) :: ws)

def schedule (block : List UInt32) : List UInt32 := (extend 48 block.reverse).reverse

/-- one round with a constant and a word of the schedule -/
def round (s : Words) (k w : UInt32) : Words :=
  let s1 := turn s.e 6 ^^^ turn s.e 11 ^^^ turn s.e 25
  let choice := (s.e &&& s.f) ^^^ (~~~s.e &&& s.g)
  let t1 := s.h + s1 + choice + k + w
  let s0 := turn s.a 2 ^^^ turn s.a 13 ^^^ turn s.a 22
  let majority := (s.a &&& s.b) ^^^ (s.a &&& s.c) ^^^ (s.b &&& s.c)
  ⟨t1 + (s0 + majority), s.a, s.b, s.c, s.d + t1, s.e, s.f, s.g⟩

def compress (s : Words) (block : List UInt32) : Words :=
  let r := (roundConstants.zip (schedule block)).foldl (fun s kw => round s kw.1 kw.2) s
  ⟨s.a + r.a, s.b + r.b, s.c + r.c, s.d + r.d, s.e + r.e, s.f + r.f, s.g + r.g, s.h + r.h⟩

/-- mix in the blocks of sixteen words, `n` of them -/
def compressBlocks : Nat → Words → List UInt32 → Words
  | 0, s, _ => s
  | n + 1, s, ws => compressBlocks n (compress s (ws.take 16)) (ws.drop 16)

/-- the four bytes of a word, the highest first -/
def bytes32 (w : UInt32) : List UInt8 :=
  [w >>> 24, w >>> 16, w >>> 8, w].map UInt32.toUInt8

def hash (s : List UInt8) : List UInt8 :=
  let ws := toWords (pad s)
  let r := compressBlocks (ws.length / 16) start ws
  [r.a, r.b, r.c, r.d, r.e, r.f, r.g, r.h].flatMap bytes32

end ContractAudit.Sha256
