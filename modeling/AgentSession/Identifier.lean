import AgentSession.Text.Cut
/-!
# Identifiers

An identifier is a short prefix that tells what it names, an underscore, and a part that tells it
from the others. That part is either a counter or the numeral of a word of 128 bits in lower case.

## Numerals

How a word is written and read by itself is a parameter, `Ulid.Numerals`. Identifiers are drawn and
read with `Numerals.base32`: 26 digits to the base 32, most significant first, which are written in
upper case and read in either case. The top two bits of 26 digits do not fit and are dropped.

## Fresh identifiers

A generator knows which identifier it will give whenever it is asked for one of some kind, and how
often it has been asked. So a run that draws identifiers is a function, and any assumption about
them is one about that sequence. Nothing ties an identifier to the kind it is asked for; the two
generators below put the prefix of that kind in front.
-/

namespace AgentSession

/-- What an identifier names. -/
inductive IdKind where
  | thread
  | run
  | message
  | thinking
  | toolResult
deriving DecidableEq, Repr

namespace IdKind

def all : List IdKind := [.thread, .run, .message, .thinking, .toolResult]

def label : IdKind → String
  | .thread => "thr"
  | .run => "run"
  | .message => "msg"
  | .thinking => "thk"
  | .toolResult => "tlr"

def ofLabel? : String → Option IdKind
  | "thr" => some .thread
  | "run" => some .run
  | "msg" => some .message
  | "thk" => some .thinking
  | "tlr" => some .toolResult
  | _ => none

end IdKind

/-- A word of 128 bits. -/
abbrev Ulid := Fin (Nat.pow 2 128)

namespace Ulid

/-- The digits to the base 32: the decimal digits and the letters except I, L, O and U. -/
def alphabet : List Char := "0123456789abcdefghjkmnpqrstvwxyz".toList

def digitCount : Nat := 26

def digit (n : Nat) : Char := alphabet.getD (n % 32) '0'

/-- The last `count` digits of a number, most significant first. -/
def digits (n : Nat) : Nat → List Char
  | 0 => []
  | count + 1 => digits (n / 32) count ++ [digit n]

/-- The value of a digit in either case. -/
def digitValue? (c : Char) : Option Nat :=
  alphabet.findIdx? fun d ↦ d == c.toLower

def parse (text : List Char) : Option Ulid :=
  if text.length = digitCount then
    (text.mapM digitValue?).map fun ds ↦ Fin.ofNat _ (ds.foldl (fun n d ↦ n * 32 + d) 0)
  else none

/-- How words are written by themselves, and how they are read back. -/
structure Numerals where
  write : Ulid → List Char
  read : List Char → Option Ulid

def Numerals.base32 : Numerals where
  write u := (digits u digitCount).map Char.toUpper
  read := parse

/-- A word as it stands in an identifier. -/
def render (u : Ulid) (numerals : Numerals := .base32) : String :=
  String.ofList ((numerals.write u).map Char.toLower)

/-- Words to be drawn one after the other: the time in milliseconds in the upper 48 bits, and below
it a random number of 64 bits in the place of 80, which leaves room to count. -/
def sequence (ms random n : Nat) : Ulid := Fin.ofNat _ (ms * Nat.pow 2 80 + random + n)

end Ulid

namespace Identifier

def ofUlid (kind : IdKind) (u : Ulid) (numerals : Ulid.Numerals := .base32) : String :=
  s!"{kind.label}_{u.render numerals}"

def parse (id : String) (numerals : Ulid.Numerals := .base32) : Option (IdKind × Ulid) := do
  let (label, rest) ← Text.splitFirst '_' id.toList
  let kind ← IdKind.ofLabel? (String.ofList label)
  let u ← numerals.read rest
  some (kind, u)

def hasKind (id : String) (kind : IdKind) : Bool :=
  (kind.label.toList ++ ['_']).isPrefixOf id.toList

end Identifier

/-- A generator of identifiers. -/
structure IdSource where
  /-- The identifiers it gives, from the first on, each for the kind it is asked for. -/
  text : Nat → IdKind → String
  drawn : Nat := 0

namespace IdSource

def next (ids : IdSource) (kind : IdKind) : String × IdSource :=
  (ids.text ids.drawn kind, { ids with drawn := ids.drawn + 1 })

/-- The generator that counts from one. -/
def sequential : IdSource := { text := fun n kind ↦ s!"{kind.label}_{n + 1}" }

/-- The generator that draws words of 128 bits. -/
def ofUlids (word : Nat → Ulid) : IdSource where
  text n kind := Identifier.ofUlid kind (word n)

end IdSource

end AgentSession
