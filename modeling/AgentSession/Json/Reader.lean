import AgentSession.Json.Written
/-!
# Strict reading of typed values

A `Reader α` reads a value of type `α` from a written document that may be nested in a given
number of further levels, or refuses it. A record is written as an object or as an array of its
fields in their order. In an object, names that the record does not know are passed over together
with their values, whatever these are; a name it knows may occur once.

Fields passed over are never evaluated, so neither the nesting limit nor a number without a value
is noticed there.
-/

namespace AgentSession

/-- Reads a value from a written document that is nested in at most so many levels. -/
abbrev Reader (α : Type) := Nat → Written → Option α

namespace Reader

variable {α : Type}

def document : Reader Json := Written.value?

def text : Reader String
  | _, .text s => s
  | _, _ => none

def bool : Reader Bool
  | _, .bool b => some b
  | _, _ => none

def natural : Reader Nat
  | _, .number (some (.int i)) => if 0 ≤ i then some i.toNat else none
  | _, _ => none

/-- Reads a value, or `null` for its absence. -/
def optional (read : Reader α) : Reader (Option α)
  | _, .null => some none
  | depth, w => (read depth w).map some

def list (read : Reader α) : Reader (List α)
  | depth + 1, .array items => items.mapM (read depth)
  | _, _ => none

/-- Reads a dictionary, of which the last value under a key counts. -/
def dict (read : Reader α) : Reader (Dict α)
  | depth + 1, .object members =>
    (members.mapM fun (member : Option String × Written) ↦ do
      let key ← member.1
      let value ← read depth member.2
      some (key, value)).map Dict.ofList
  | _, _ => none

/-- Reads one of several names, also in the form of an object that maps the name to `null`. -/
def choice (ofName? : String → Option α) : Reader α
  | _, .text (some s) => ofName? s
  | _ + 1, .object [(some s, .null)] => ofName? s
  | _, _ => none

def run (read : Reader α) (text : List Char) : Option α :=
  (Written.parse text).bind (read Json.depthLimit)

end Reader

/-- The fields of a record as they are written. -/
structure Record where
  /-- How many levels a field may be nested in. -/
  depth : Nat
  fields : List (String × Written)

namespace Record

variable {α : Type}

/-- The members of an object whose names are in a list, if every name is a text and none of those
in the list occurs twice. -/
def pick (names : List String) : List (Option String × Written) → Option (List (String × Written))
  | [] => some []
  | (key, w) :: members => do
    let k ← key
    let rest ← pick names members
    if k ∈ names then
      if rest.any fun p ↦ p.1 == k then none else some ((k, w) :: rest)
    else some rest

def read (names : List String) : Reader Record
  | depth + 1, .object members => (pick names members).map fun fields ↦ ⟨depth, fields⟩
  | depth + 1, .array items =>
    if items.length ≤ names.length then some ⟨depth, names.zip items⟩ else none
  | _, _ => none

def withDefault (r : Record) (name : String) (default : α) (read : Reader α) : Option α :=
  match r.fields.lookup name with
  | none => some default
  | some w => read r.depth w

def required (r : Record) (name : String) (read : Reader α) : Option α :=
  (r.fields.lookup name).bind (read r.depth)

end Record

end AgentSession
