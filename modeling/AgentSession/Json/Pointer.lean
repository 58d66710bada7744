import AgentSession.Json.Basic
import AgentSession.Text.Cut
import AgentSession.Text.Decimal
import AgentSession.Text.Quoted
/-!
# Pointers into a document

A pointer is a list of segments, each of which names a member of an object or an item of an array.
In text every segment has a slash in front, and a tilde or slash inside a segment is escaped. The
empty text and the single slash both stand for the pointer without segments, the whole document.

## Segments that name items

An item is named by the numeral of its position, without sign or needless zeros. The segment `-`
names the place after the last item, which exists only where an item is to be inserted; so does
the numeral of that place.
-/

namespace AgentSession

/-- A place in a document. -/
structure Pointer where
  /-- The segments, outermost first. -/
  segments : List String
deriving DecidableEq, Repr

/-- Why a text is no pointer. -/
inductive PointerError where
  | noSlash (path : String)
  /-- A tilde in the text is followed by neither `0` nor `1`. -/
  | badEscape (path : String)
deriving DecidableEq, Repr

def PointerError.message : PointerError → String
  | .noSlash path => s!"path must start with '/': {path}"
  | .badEscape path => s!"invalid escape in path: {path}"

namespace Pointer

def root : Pointer := ⟨[]⟩

def unescape : List Char → Option (List Char)
  | [] => some []
  | '~' :: '0' :: rest => (unescape rest).map ('~' :: ·)
  | '~' :: '1' :: rest => (unescape rest).map ('/' :: ·)
  | c :: rest => if c = '~' then none else (unescape rest).map (c :: ·)

/-- Tildes go first, so that those of escaped slashes stay. -/
def escape (text : List Char) : List Char :=
  Text.replaceAll ['/'] ['~', '1'] (Text.replaceAll ['~'] ['~', '0'] text)

def parse (path : String) : Except PointerError Pointer :=
  match path.toList with
  | [] | ['/'] => .ok root
  | '/' :: rest =>
    match (Text.splitAll '/' rest).mapM unescape with
    | some segments => .ok ⟨segments.map String.ofList⟩
    | none => .error (.badEscape path)
  | _ => .error (.noSlash path)

def render (p : Pointer) : String :=
  match p.segments with
  | [] => "/"
  | segments => String.ofList (segments.flatMap fun s ↦ '/' :: escape s.toList)

def isRoot (p : Pointer) : Bool := p.segments.isEmpty

/-- Whether `q` leads strictly below the place of `p`. -/
def isAbove (p q : Pointer) : Bool :=
  p.segments.length < q.segments.length && p.segments.isPrefixOf q.segments

end Pointer

/-! ## Following a pointer -/

/-- Why a pointer cannot be followed, or nothing can be done at the place it leads to. -/
inductive PathError where
  | notFound
  /-- A segment is no numeral but has to name an item. -/
  | invalidIndex (segment : String)
  | hugeIndex
  | outOfBounds (segment : String) (length : Nat)
  /-- A segment on the way leads into a document that has no parts. -/
  | throughScalar
  /-- The last segment leads into a document that has no parts. -/
  | addBelowScalar
  | removeRoot
deriving DecidableEq, Repr

def PathError.message (path : Pointer) : PathError → String
  | .notFound => s!"path not found: {path.render}"
  | .invalidIndex segment => s!"invalid array index {Text.quoted segment} in {path.render}"
  | .hugeIndex => s!"array index out of range in {path.render}"
  | .outOfBounds segment length =>
    s!"array index {segment} out of bounds (len {length}) in {path.render}"
  | .throughScalar => s!"cannot traverse a scalar at {path.render}"
  | .addBelowScalar => s!"cannot add below a scalar at {path.render}"
  | .removeRoot => "cannot remove the root document"

/-- The position that a segment names in an array of a given length, which need not be there. -/
def Pointer.position (segment : String) (length : Nat) : Except PathError Nat :=
  if segment = "-" then .ok length
  else match Decimal.canonical segment.toList with
    | none => .error (.invalidIndex segment)
    | some i => if i ≤ Decimal.maxWord then .ok i else .error .hugeIndex

/-- The greatest position in an array of a given length. For an array without items it is zero
even where the place after the last item does not count, although there is no such place. -/
def Pointer.limit (length : Nat) (atEnd : Bool) : Nat := if atEnd then length else length - 1

/-- The position that a segment names in an array of a given length. The place after the last item
counts only if `atEnd` is set. -/
def Pointer.index (segment : String) (length : Nat) (atEnd : Bool) : Except PathError Nat :=
  match position segment length with
  | .error e => .error e
  | .ok i =>
    if (length = 0 ∧ atEnd = false) ∨ limit length atEnd < i then
      .error (.outOfBounds segment length)
    else .ok i

/-- The positions that count are those of the items and, if `atEnd` is set, the place after the
last. -/
theorem Pointer.index_eq (segment : String) (length : Nat) (atEnd : Bool) :
    index segment length atEnd = match position segment length with
      | .error e => .error e
      | .ok i =>
        if i < length ∨ (atEnd = true ∧ i = length) then .ok i
        else .error (.outOfBounds segment length) := by
  have hplace (i : Nat) : (length = 0 ∧ atEnd = false) ∨ limit length atEnd < i ↔
      ¬(i < length ∨ (atEnd = true ∧ i = length)) := by
    cases atEnd <;> simp [limit] <;> omega
  simp only [index, hplace, ite_not]

def Json.follow (doc : Json) : List String → Except PathError Json
  | [] => .ok doc
  | segment :: rest =>
    match doc with
    | .obj members =>
      match Dict.get? members segment with
      | some child => child.follow rest
      | none => .error .notFound
    | .arr items =>
      match Pointer.index segment items.length false with
      | .error e => .error e
      | .ok i =>
        match items[i]? with
        | some child => child.follow rest
        | none => .error .notFound
    | .null | .bool _ | .num _ | .str _ => .error .notFound

def Json.get (doc : Json) (p : Pointer) : Except PathError Json := doc.follow p.segments

example : Pointer.unescape ['a', '~', '1', '~', '0'] = some ['a', '/', '~'] := by decide
example : Pointer.unescape ['~', '2'] = none := by decide
example : Pointer.escape ['a', '/', '~'] = ['a', '~', '1', '~', '0'] := by decide

end AgentSession
