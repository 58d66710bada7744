import AgentSession.Json.Pointer
/-!
# Edits at a pointer

Adding, removing and replacing all walk to the container that holds the last segment and change it
there. The document is changed in place, so an edit always leaves a document, and where it fails
this is the document as it was left by what had been done until then. `Json.editAt` is that walk,
for any change of the container.

Adding may be asked to create missing members on the way. They are created as empty objects, one
after the other as the walk comes to them.
-/

namespace AgentSession.Json

variable {α : Type}

/-- What an edit gives, or why it fails, and the document that it leaves. -/
abbrev Edited (α : Type) := Except PathError α × Json

/-- The members of an object from which a walk goes on: with `create`, an empty object is put under
the key if there is nothing. -/
def membersFor (create : Bool) (key : String) (members : Dict Json) : Dict Json :=
  if create then Dict.ensure members key empty else members

/-- Walks along all segments but the last, and lets `change` act on the container there. -/
def editAt (create : Bool) (change : String → Json → Edited α) (doc : Json) :
    List String → Edited α
  | [] => (.error .removeRoot, doc)
  | [last] => change last doc
  | segment :: next :: rest =>
    match doc with
    | .obj members =>
      let members := membersFor create segment members
      match Dict.get? members segment with
      | some child =>
        let (result, child) := child.editAt create change (next :: rest)
        (result, .obj (Dict.replace members segment child))
      | none => (.error .notFound, .obj members)
    | .arr items =>
      match Pointer.index segment items.length false with
      | .error e => (.error e, .arr items)
      | .ok i =>
        match items[i]? with
        | some child =>
          let (result, child) := child.editAt create change (next :: rest)
          (result, .arr (items.set i child))
        | none => (.error .notFound, .arr items)
    | doc => (.error .throughScalar, doc)

/-- Puts a document into a container: under a key, whether or not it is taken, or in front of the
item at a position. -/
def addChild (value : Json) (last : String) : Json → Edited Unit
  | .obj members => (.ok (), .obj (Dict.insert members last value))
  | .arr items =>
    match Pointer.index last items.length true with
    | .error e => (.error e, .arr items)
    | .ok i => (.ok (), .arr (items.insertIdx i value))
  | doc => (.error .addBelowScalar, doc)

def removeChild (last : String) : Json → Edited Json
  | .obj members =>
    match Dict.get? members last with
    | some child => (.ok child, .obj (Dict.erase members last))
    | none => (.error .notFound, .obj members)
  | .arr items =>
    match Pointer.index last items.length false with
    | .error e => (.error e, .arr items)
    | .ok i =>
      match items[i]? with
      | some child => (.ok child, .arr (items.eraseIdx i))
      | none => (.error .notFound, .arr items)
  | doc => (.error .notFound, doc)

def replaceChild (value : Json) (last : String) : Json → Edited Unit
  | .obj members =>
    if Dict.has members last then (.ok (), .obj (Dict.replace members last value))
    else (.error .notFound, .obj members)
  | .arr items =>
    match Pointer.index last items.length false with
    | .error e => (.error e, .arr items)
    | .ok i => (.ok (), .arr (items.set i value))
  | doc => (.error .notFound, doc)

/-- Adds a document at a pointer. With `create`, missing members on the way are created. -/
def add (doc : Json) (p : Pointer) (value : Json) (create : Bool) : Edited Unit :=
  match p.segments with
  | [] => (.ok (), value)
  | segments => doc.editAt create (addChild value) segments

/-- Removes the document at a pointer and gives it. -/
def remove (doc : Json) (p : Pointer) : Edited Json :=
  doc.editAt false removeChild p.segments

def replace (doc : Json) (p : Pointer) (value : Json) : Edited Unit :=
  match p.segments with
  | [] => (.ok (), value)
  | segments => doc.editAt false (replaceChild value) segments

end AgentSession.Json
