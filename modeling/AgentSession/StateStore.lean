import AgentSession.Failure
/-!
# The state document and its history

A store holds the state document of a session. A patch changes it as a whole or not at all. While
the history is enabled, each change through `StateStore.set` or `StateStore.patch` first keeps the
document it replaces; of the documents kept, only the newest remain, up to a limit of at least one.

`StateStore.restore` replaces the document without keeping it.
-/

namespace AgentSession

/-- A state document with the documents it had before. -/
structure StateStore where
  state : Json := .empty
  /-- The documents kept, newest first. -/
  history : List Json := []
  /-- How many documents are kept, or `none` while none are. -/
  limit : Option Nat := none
  /-- Whether a patch may create missing members on the way to an addition. -/
  createParents : Bool := false
deriving DecidableEq, Repr

namespace StateStore

def defaultLimit : Nat := 10

/-- The documents kept after one more. If as many are kept as may be, the oldest is dropped. -/
def keep (limit : Option Nat) (doc : Json) (history : List Json) : List Json :=
  match limit with
  | none => history
  | some n => if history.length = n then doc :: history.dropLast else doc :: history

def set (s : StateStore) (doc : Json) : StateStore :=
  { s with state := doc, history := keep s.limit s.state s.history }

/-- Applies the operations of a patch, or changes nothing. -/
def patchOps (s : StateStore) (ops : List PatchOp) : Except PatchFailure StateStore :=
  match Patch.apply s.createParents ops s.state with
  | (doc, none) => .ok (s.set doc)
  | (_, some failure) => .error failure

def patch (s : StateStore) (doc : Json) : Except Failure StateStore :=
  match Patch.ofJson doc with
  | .error e => .error (.ofPatchSyntax e)
  | .ok ops => (s.patchOps ops).mapError .ofPatch

/-- Keeps up to `n` documents from now on, but at least one. -/
def enableHistory (s : StateStore) (n : Nat) : StateStore :=
  { s with limit := some (max n 1), history := s.history.take (max n 1) }

/-- Keeps no documents from now on, and forgets those kept. -/
def disableHistory (s : StateStore) : StateStore :=
  { s with limit := none, history := [] }

/-- The document kept at a position, counted from the oldest. -/
def historyAt (s : StateStore) (index : Nat) : Option Json := s.history.reverse[index]?

def rollback (s : StateStore) : Except Failure StateStore :=
  match s.history with
  | [] => .error (.state "no state history to roll back to")
  | doc :: history => .ok { s with state := doc, history := history }

/-- Replaces the document without keeping it. -/
def restore (s : StateStore) (doc : Json) : StateStore := { s with state := doc }

/-- Sets the document to `null` and forgets the documents kept. -/
def clear (s : StateStore) : StateStore := { s with state := .null, history := [] }

end StateStore

end AgentSession
