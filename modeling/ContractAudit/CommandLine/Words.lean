/-!
# Words of a command line

A word that begins with two dashes is an option by its name, one that begins with a single dash
is a row of options by their letters, and two dashes alone make all words after them plain.  The
value of an option stands behind an equals sign, behind the letter itself, or in the next word,
which then must not look like an option.

* `OptionSpec`: an option that a command knows.
* `PlainRole`: what a plain word stands for.
* `Given`: what the words have given so far.
* `readWords`: read words up to the end, or up to the name of a command.

No option is given twice, and no path is empty.  The first word that makes no sense ends the
reading, whatever stands after it.
-/

namespace ContractAudit.CommandLine

/-- why words are not read to the end -/
inductive Interruption
  /-- the words make no sense -/
  | misuse
  /-- help is asked for -/
  | help
  /-- the version is asked for -/
  | version
  deriving DecidableEq

/-- what an option stands for -/
inductive OptionKind
  /-- it has no value -/
  | flag
  /-- its value is any text -/
  | text
  /-- its value is a path -/
  | path
  /-- it asks for something else than a command -/
  | interruption (i : Interruption)
  deriving DecidableEq

/-- an option that a command knows -/
structure OptionSpec where
  name : String
  letter : Option Char
  kind : OptionKind
  deriving DecidableEq

/-- what a plain word stands for -/
inductive PlainRole
  /-- it is the name of a command -/
  | command
  /-- it is the path of a command -/
  | path
  /-- it makes no sense -/
  | nothing
  deriving DecidableEq

/-- what the words have given so far -/
structure Given where
  /-- the names of the options with their values; a flag has an empty one -/
  options : List (String × String)
  path : Option String
  deriving DecidableEq

namespace Given

def nothing : Given := ⟨[], none⟩

def value? (g : Given) (name : String) : Option String := g.options.lookup name

def has (g : Given) (name : String) : Bool := (g.value? name).isSome

/-- give an option a value -/
def addOption (g : Given) (o : OptionSpec) (value : String) : Except Interruption Given :=
  if g.has o.name ∨ (o.kind = .path ∧ value = "") then .error .misuse
  else .ok { g with options := g.options ++ [(o.name, value)] }

/-- give the path of the command -/
def addPath (g : Given) (p : String) : Except Interruption Given :=
  if g.path.isSome ∨ p = "" then .error .misuse else .ok { g with path := some p }

end Given

/-- the kinds of words -/
inductive Word
  | plain (s : String)
  /-- two dashes alone -/
  | separator
  /-- the name of an option, and the value behind an equals sign -/
  | named (name : List Char) (value : Option (List Char))
  /-- letters of options; behind one of them there may be its value -/
  | letters (cs : List Char)

/-- the kind of a word; a single dash is plain -/
def Word.ofString (s : String) : Word :=
  match s.toList with
  | '-' :: '-' :: body =>
    if body.isEmpty then .separator
    else
      let name := body.takeWhile (· != '=')
      .named name ((body.drop name.length).tail?)
  | '-' :: c :: cs => .letters (c :: cs)
  | _ => .plain s

/-- the value that stands behind a letter, with or without an equals sign -/
def valueBehind : List Char → Option (List Char)
  | [] => none
  | '=' :: cs => some cs
  | cs => some cs

section

variable (known : List OptionSpec)

/-- give an option; the answer tells which option still waits for its value -/
def giveOption (g : Given) (o : OptionSpec) (value : Option (List Char)) :
    Except Interruption (Given × Option OptionSpec) :=
  match value with
  | some v => (g.addOption o (String.ofList v)).map (·, none)
  | none => .ok (g, some o)

/-- give an option by its name -/
def giveNamed (g : Given) (name : List Char) (value : Option (List Char)) :
    Except Interruption (Given × Option OptionSpec) :=
  match known.find? fun o => o.name == String.ofList name with
  | none => .error .misuse
  | some o =>
    match o.kind, value with
    | .text, _ | .path, _ => giveOption g o value
    | .flag, none => (g.addOption o "").map (·, none)
    | .interruption i, none => .error i
    | _, some _ => .error .misuse

/-- give options by their letters -/
def giveLetters (g : Given) : List Char → Except Interruption (Given × Option OptionSpec)
  | [] => .ok (g, none)
  | c :: cs =>
    match known.find? fun o => o.letter == some c with
    | none => .error .misuse
    | some o =>
      match o.kind with
      | .text | .path => giveOption g o (valueBehind cs)
      | .flag => do
        let g ← g.addOption o ""
        giveLetters g cs
      | .interruption i => .error i

/-- read words: to the end, or up to the name of a command, which is then the first of the words
that are left -/
def readWords (role : PlainRole) (g : Given) : List String → Except Interruption (Given × List String)
  | [] => .ok (g, [])
  | w :: ws =>
    match Word.ofString w with
    | .plain s =>
      match role with
      | .command => .ok (g, w :: ws)
      | .path => do
        let g ← g.addPath s
        readWords role g ws
      | .nothing => .error .misuse
    | .separator =>
      match role with
      | .command => .error .misuse
      | .path => (ws.foldlM Given.addPath g).map (·, [])
      | .nothing => if ws.isEmpty then .ok (g, []) else .error .misuse
    | .named name value => do
      let (g, waiting) ← giveNamed known g name value
      continueWith g waiting ws
    | .letters cs => do
      let (g, waiting) ← giveLetters known g cs
      continueWith g waiting ws
where
  /-- read the value that an option waits for, and the words after it -/
  continueWith (g : Given) (waiting : Option OptionSpec) (ws : List String) :
      Except Interruption (Given × List String) :=
    match waiting, ws with
    | none, ws => readWords role g ws
    | some _, [] => .error .misuse
    | some o, v :: ws =>
      match Word.ofString v with
      | .plain s => do
        let g ← g.addOption o s
        readWords role g ws
      | _ => .error .misuse

end

end ContractAudit.CommandLine
