/-!
# Names and paths of the operating system

The names of files, and the paths that lead to them, are rows of bytes.  Most of them are texts in
UTF-8, but nothing makes sure of that.

* `RawText`: a row of bytes.  The order is that of the bytes.
* `RawText.utf8`, `RawText.ofString`: the bytes of characters and of a text in UTF-8.
* `RawText.Reader`: where a reader of UTF-8 stands between two bytes.
* `RawText.text`: the text that is shown.  Where the bytes are not UTF-8 it has replacement
  characters: one for every beginning of a character that does not go on, as far as it goes, and one
  for every other byte that is in no character.
-/

namespace ContractAudit

/-- a row of bytes, which need not be the UTF-8 of a text -/
structure RawText where
  bytes : List UInt8

def slashByte : UInt8 := 47

def dotByte : UInt8 := 46

namespace RawText

theorem bytes_inj {a b : RawText} : a.bytes = b.bytes ↔ a = b := RawText.mk.injEq .. ▸ Iff.rfl

instance : DecidableEq RawText := fun a b => decidable_of_iff (a.bytes = b.bytes) bytes_inj

/-- the bytes of characters in UTF-8 -/
def utf8 (cs : List Char) : List UInt8 := cs.flatMap String.utf8EncodeChar

/-- the bytes of a text -/
def ofString (s : String) : RawText := ⟨utf8 s.toList⟩

theorem utf8_cons (c : Char) (cs : List Char) :
    utf8 (c :: cs) = String.utf8EncodeChar c ++ utf8 cs := List.flatMap_cons

theorem utf8_append (cs ds : List Char) : utf8 (cs ++ ds) = utf8 cs ++ utf8 ds :=
  List.flatMap_append

instance : Coe String RawText := ⟨ofString⟩

instance : Append RawText := ⟨fun a b => ⟨a.bytes ++ b.bytes⟩⟩

instance : Ord RawText := ⟨fun a b => compare a.bytes b.bytes⟩

def size (a : RawText) : Nat := a.bytes.length

def isEmpty (a : RawText) : Bool := a.bytes.isEmpty

@[simp] theorem bytes_append (a b : RawText) : (a ++ b).bytes = a.bytes ++ b.bytes := rfl

@[simp] theorem size_append (a b : RawText) : (a ++ b).size = a.size + b.size := List.length_append

theorem append_assoc (a b c : RawText) : a ++ b ++ c = a ++ (b ++ c) :=
  bytes_inj.1 (List.append_assoc ..)

@[simp] theorem bytes_ofString_empty : (ofString "").bytes = [] := rfl

@[simp] theorem bytes_ofString_dot : (ofString ".").bytes = [dotByte] := rfl

@[simp] theorem bytes_ofString_slash : (ofString "/").bytes = [slashByte] := rfl

@[simp] theorem isEmpty_iff {a : RawText} : a.isEmpty ↔ a.bytes = [] := List.isEmpty_iff

@[simp] theorem eq_empty_iff {a : RawText} : a = "" ↔ a.bytes = [] := bytes_inj.symm

/-- stands where bytes were in no character -/
def replacement : Char := '\uFFFD'

/-- where a reader stands between two bytes -/
inductive Reader
  /-- between two characters -/
  | outside
  /-- in a character: the number of its bytes up to here, the least and the greatest byte that goes
  on with it, and how many come behind that one -/
  | inside (value low high more : Nat)

namespace Reader

/-- the characters that end with the first byte of a character, and where the reader is then -/
def first (b : Nat) : List Char × Reader :=
  if b < 0x80 then ([Char.ofNat b], outside)
  else if b < 0xC2 then ([replacement], outside)
  else if b < 0xE0 then ([], inside (b - 0xC0) 0x80 0xBF 0)
  else if b < 0xF0 then
    -- no number is written with more bytes than it needs, and none of the surrogates is written
    ([], inside (b - 0xE0) (if b = 0xE0 then 0xA0 else 0x80) (if b = 0xED then 0x9F else 0xBF) 1)
  else if b < 0xF5 then
    ([], inside (b - 0xF0) (if b = 0xF0 then 0x90 else 0x80) (if b = 0xF4 then 0x8F else 0xBF) 2)
  else ([replacement], outside)

/-- the characters that end with a byte, and where the reader is then -/
def step (r : Reader) (b : Nat) : List Char × Reader :=
  match r with
  | outside => first b
  | inside value low high more =>
    if low ≤ b ∧ b ≤ high then
      match more with
      | 0 => ([Char.ofNat (value * 64 + b % 64)], outside)
      | more + 1 => ([], inside (value * 64 + b % 64) 0x80 0xBF more)
    else (replacement :: (first b).1, (first b).2)

/-- the characters of a row of bytes -/
def read (r : Reader) : List UInt8 → List Char
  | [] =>
    match r with
    | outside => []
    | inside .. => [replacement]
  | b :: bs => (r.step b.toNat).1 ++ read (r.step b.toNat).2 bs

end Reader

/-- the text that is shown -/
def text (a : RawText) : String := String.ofList (Reader.outside.read a.bytes)

end RawText

end ContractAudit
