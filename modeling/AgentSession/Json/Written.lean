import AgentSession.Json.Basic
import AgentSession.Json.Token
/-!
# JSON text

The second half of reading JSON. Tokens are read by a machine with a stack: a frame for each
array or object that is open, and a mode that says what may come next. The result is the document
as it is written, in which members keep their order and may repeat a key, and numbers and texts
may lack a value.

## From the text to the document

`Written.value?` turns a written document into the document it denotes: of members with one key
the last one counts, and it refuses a document that lacks a value somewhere or is nested deeper
than allowed. `Json.parse` allows `Json.depthLimit` levels.
-/

namespace AgentSession

/-- A document as it is written. -/
inductive Written where
  | null
  | bool (b : Bool)
  /-- A number, with its value if it has one. -/
  | number (n : Option Number)
  /-- A text, with its characters if it has any. -/
  | text (s : Option String)
  | array (items : List Written)
  /-- Members in the order of the text. -/
  | object (members : List (Option String × Written))
deriving Repr, Inhabited

namespace Written

/-! ## Reading tokens -/

/-- An array or object that is open, with what it holds so far newest first. -/
inductive Frame where
  | array (done : List Written)
  | object (done : List (Option String × Written))
  | member (done : List (Option String × Written)) (key : Option String)
deriving Repr

/-- What may come next. -/
inductive Mode where
  | value
  | firstItem
  | key
  | firstKey
  | colon (key : Option String)
  | after (value : Written)
deriving Repr

/-- The machine between two tokens. -/
structure Machine where
  frames : List Frame := []
  mode : Mode := .value
deriving Repr

def Machine.enter (frames : List Frame) : Token → Option Machine
  | .null => some ⟨frames, .after .null⟩
  | .bool b => some ⟨frames, .after (.bool b)⟩
  | .number n => some ⟨frames, .after (.number n)⟩
  | .text s => some ⟨frames, .after (.text s)⟩
  | .openArray => some ⟨.array [] :: frames, .firstItem⟩
  | .openObject => some ⟨.object [] :: frames, .firstKey⟩
  | .closeArray | .closeObject | .comma | .colon => none

def Machine.step (m : Machine) (token : Token) : Option Machine :=
  match m.mode, m.frames, token with
  | .value, frames, token => Machine.enter frames token
  | .firstItem, .array _ :: frames, .closeArray => some ⟨frames, .after (.array [])⟩
  | .firstItem, frames, token => Machine.enter frames token
  | .key, frames, .text key => some ⟨frames, .colon key⟩
  | .firstKey, .object _ :: frames, .closeObject => some ⟨frames, .after (.object [])⟩
  | .firstKey, frames, .text key => some ⟨frames, .colon key⟩
  | .colon key, .object done :: frames, .colon => some ⟨.member done key :: frames, .value⟩
  | .after v, .array done :: frames, .comma => some ⟨.array (v :: done) :: frames, .value⟩
  | .after v, .array done :: frames, .closeArray =>
    some ⟨frames, .after (.array (v :: done).reverse)⟩
  | .after v, .member done key :: frames, .comma =>
    some ⟨.object ((key, v) :: done) :: frames, .key⟩
  | .after v, .member done key :: frames, .closeObject =>
    some ⟨frames, .after (.object ((key, v) :: done).reverse)⟩
  | _, _, _ => none

def Machine.finish (m : Machine) : Option Written :=
  match m.mode, m.frames with
  | .after v, [] => some v
  | _, _ => none

def ofTokens? (tokens : List Token) : Option Written :=
  (tokens.foldlM Machine.step {}).bind Machine.finish

def parse (text : List Char) : Option Written :=
  (Token.scan text).bind ofTokens?

/-! ## The document denoted -/

mutual

/-- The document that a written document denotes, if it is nested in at most `depth` levels. -/
def value? (depth : Nat) : Written → Option Json
  | .null => some .null
  | .bool b => some (.bool b)
  | .number n => n.map .num
  | .text s => s.map .str
  | .array items =>
    match depth with
    | 0 => none
    | depth + 1 => (valueItems? depth items).map .arr
  | .object members =>
    match depth with
    | 0 => none
    | depth + 1 => (valueMembers? depth members).map fun pairs ↦ .obj (Dict.ofList pairs)

def valueItems? (depth : Nat) : List Written → Option (List Json)
  | [] => some []
  | item :: items => do
    let v ← value? depth item
    let vs ← valueItems? depth items
    some (v :: vs)

def valueMembers? (depth : Nat) : List (Option String × Written) → Option (List (String × Json))
  | [] => some []
  | (key, item) :: members => do
    let k ← key
    let v ← value? depth item
    let vs ← valueMembers? depth members
    some ((k, v) :: vs)

end

end Written

/-- How many levels of arrays and objects a JSON text may have. -/
def Json.depthLimit : Nat := 127

def Json.parse (text : String) : Option Json :=
  (Written.parse text.toList).bind (Written.value? Json.depthLimit)

example :
    (((Token.scan ['[', '1', ']']).bind Written.ofTokens?).bind (Written.value? 1)).isSome := by
  decide +kernel

end AgentSession
