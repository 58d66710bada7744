import AgentSession.Json.Edit
import AgentSession.Json.Printer
/-!
# Patches

A patch is a list of operations that are applied in order until one fails. They change the document
in place, so the document that a failing operation leaves is kept beside the error. To move a
document is to take it out and then to put it in elsewhere; where the second step fails, the first
one stays.
-/

namespace AgentSession

/-- An operation of a patch. -/
inductive PatchOp where
  | add (path : Pointer) (value : Json)
  | remove (path : Pointer)
  | replace (path : Pointer) (value : Json)
  | move (source path : Pointer)
  | copy (source path : Pointer)
  /-- Demands that the document at a place is a given one. -/
  | test (path : Pointer) (value : Json)
deriving DecidableEq, Repr

/-- Why an operation fails. -/
inductive PatchError where
  /-- A pointer cannot be followed, or nothing can be done where it leads to. -/
  | at (path : Pointer) (cause : PathError)
  | moveIntoItself (source path : Pointer)
  | testFailed (path : Pointer) (expected found : Json)
deriving DecidableEq, Repr

def PatchError.message : PatchError → String
  | .at path cause => cause.message path
  | .moveIntoItself source path =>
    s!"cannot move {source.render} into its own child {path.render}"
  | .testFailed path expected found =>
    s!"test failed at {path.render}: expected {expected.compact}, found {found.compact}"

namespace PatchOp

def name : PatchOp → String
  | .add _ _ => "add"
  | .remove _ => "remove"
  | .replace _ _ => "replace"
  | .move _ _ => "move"
  | .copy _ _ => "copy"
  | .test _ _ => "test"

/-- A document after an operation, with the error if it failed. -/
structure Outcome where
  doc : Json
  error : Option PatchError := none
deriving DecidableEq, Repr

/-- The outcome of an edit at a pointer. -/
def Outcome.ofEdit {α : Type} (path : Pointer) : Json.Edited α → Outcome
  | (.ok _, doc) => ⟨doc, none⟩
  | (.error cause, doc) => ⟨doc, some (.at path cause)⟩

/-- Applies an operation. With `create`, an addition creates missing members on its way. -/
def apply (create : Bool) (op : PatchOp) (doc : Json) : Outcome :=
  match op with
  | .add path value => .ofEdit path (doc.add path value create)
  | .remove path => .ofEdit path (doc.remove path)
  | .replace path value => .ofEdit path (doc.replace path value)
  | .move source path =>
    if source = path then .ofEdit source (doc.get source, doc)
    else if source.isAbove path then ⟨doc, some (.moveIntoItself source path)⟩
    else match doc.remove source with
      | (.error cause, doc) => ⟨doc, some (.at source cause)⟩
      | (.ok value, doc) => .ofEdit path (doc.add path value create)
  | .copy source path =>
    match doc.get source with
    | .error cause => ⟨doc, some (.at source cause)⟩
    | .ok value => .ofEdit path (doc.add path value create)
  | .test path value =>
    match doc.get path with
    | .error cause => ⟨doc, some (.at path cause)⟩
    | .ok found =>
      if found.same value then ⟨doc, none⟩ else ⟨doc, some (.testFailed path value found)⟩

end PatchOp

/-- The failure of a patch: which operation failed, and why. -/
structure PatchFailure where
  index : Nat
  op : PatchOp
  cause : PatchError
deriving DecidableEq, Repr

def PatchFailure.message (f : PatchFailure) : String :=
  s!"operation {f.index} ({f.op.name}): {f.cause.message}"

namespace Patch

/-- Applies operations in order, the first of which has the given position, up to the first that
fails. -/
def applyFrom (create : Bool) (index : Nat) (doc : Json) :
    List PatchOp → Json × Option PatchFailure
  | [] => (doc, none)
  | op :: ops =>
    match op.apply create doc with
    | ⟨doc, none⟩ => applyFrom create (index + 1) doc ops
    | ⟨doc, some cause⟩ => (doc, some ⟨index, op, cause⟩)

/-- Applies a patch: the document left behind, and the failure if there is one. -/
def apply (create : Bool) (ops : List PatchOp) (doc : Json) : Json × Option PatchFailure :=
  applyFrom create 0 doc ops

end Patch

end AgentSession
