import AgentSession.StateStore
import Mathlib.Data.List.Basic
/-!
# Undoing changes of the state document

A store is a document with a bounded undo stack. `UndoStack` is that stack in its plainest form: to
replace the document is to put it on top of those before and to cut the stack to the room there is,
and to undo is to take the top off again. While the history is disabled there is room for none.

A store does the same by other means. It keeps a limit that may be missing, and it drops the oldest
document only when it holds exactly as many as its limit says, which is enough because it never
holds more. This is the one fact that all calls have to maintain, so an undo stack carries it with
it (`UndoStack.fits`), and `UndoStack.store` is the store that a stack stands for. Every call of
that store is the same call of the stack (`UndoStack.call_store`), so the two stay together for any
sequence of calls.
-/

namespace AgentSession

/-! ## Undo stacks -/

/-- A document with the documents that it had before, as far as there is room for them. -/
structure UndoStack where
  doc : Json
  /-- The documents before, newest first. -/
  past : List Json
  /-- How many documents there is room for. -/
  room : Nat
  fits : past.length ≤ room

namespace UndoStack

/-- A document that had none before, without room for any. -/
def fresh (doc : Json) : UndoStack := ⟨doc, [], 0, Nat.le_refl 0⟩

/-- Replaces the document, and puts it on top of those before. -/
def push (t : UndoStack) (doc : Json) : UndoStack where
  doc := doc
  past := (t.doc :: t.past).take t.room
  room := t.room
  fits := List.length_take_le t.room _

/-- Brings the newest of the documents before back. -/
def undo? : UndoStack → Option UndoStack
  | ⟨_, [], _, _⟩ => none
  | ⟨_, doc :: past, room, fits⟩ => some ⟨doc, past, room, Nat.le_of_succ_le fits⟩

/-- Makes room for another number of documents. -/
def resize (t : UndoStack) (room : Nat) : UndoStack where
  doc := t.doc
  past := t.past.take room
  room := room
  fits := List.length_take_le room _

end UndoStack

/-! ## Calls -/

/-- What a patch makes of a document. -/
def Patch.result (create : Bool) (delta doc : Json) : Except Failure Json :=
  match Patch.ofJson delta with
  | .error e => .error (.ofPatchSyntax e)
  | .ok ops =>
    match Patch.apply create ops doc with
    | (changed, none) => .ok changed
    | (_, some failure) => .error (.ofPatch failure)

/-- A call that replaces the document of a store, unless it fails. -/
inductive Edit where
  | set (doc : Json)
  | patch (delta : Json)

namespace Edit

/-- The document that an edit puts in the place of another. -/
def result (create : Bool) (doc : Json) : Edit → Except Failure Json
  | .set changed => .ok changed
  | .patch delta => Patch.result create delta doc

/-- The documents that some edits replace, one after the other, newest first. An edit that fails
replaces none. -/
def replaced (create : Bool) (doc : Json) : List Edit → List Json
  | [] => []
  | e :: edits =>
    match e.result create doc with
    | .ok changed => replaced create changed edits ++ [doc]
    | .error _ => replaced create doc edits

end Edit

/-- A call of a store. -/
inductive StoreCall where
  | edit (e : Edit)
  | rollback
  | restore (doc : Json)
  | clear
  | enableHistory (n : Nat)
  | disableHistory

/-- The limit after some calls, if it was another before. -/
def StoreCall.limitAfter (limit : Option Nat) : List StoreCall → Option Nat
  | [] => limit
  | .enableHistory n :: calls => limitAfter (some (max n 1)) calls
  | .disableHistory :: calls => limitAfter none calls
  | _ :: calls => limitAfter limit calls

namespace StateStore

/-- The store after a call that gives one unless it fails. -/
def settle (s : StateStore) : Except Failure StateStore → StateStore × Option Failure
  | .ok changed => (changed, none)
  | .error failure => (s, some failure)

def edit (s : StateStore) : Edit → StateStore × Option Failure
  | .set doc => (s.set doc, none)
  | .patch delta => s.settle (s.patch delta)

/-- The store after a call, and the failure if the call fails. -/
def call (s : StateStore) : StoreCall → StateStore × Option Failure
  | .edit e => s.edit e
  | .rollback => s.settle s.rollback
  | .restore doc => (s.restore doc, none)
  | .clear => (s.clear, none)
  | .enableHistory n => (s.enableHistory n, none)
  | .disableHistory => (s.disableHistory, none)

/-- The store after some calls, and how each of them ends. -/
def callAll (s : StateStore) : List StoreCall → StateStore × List (Option Failure)
  | [] => (s, [])
  | c :: calls =>
    let (rest, outcomes) := (s.call c).1.callAll calls
    (rest, (s.call c).2 :: outcomes)

/-- The store after some edits. -/
def editAll (s : StateStore) : List Edit → StateStore
  | [] => s
  | e :: edits => (s.edit e).1.editAll edits

/-- Rolls a store back a number of times: the documents that come back, one after the other, and
the store in the end. -/
def rollbackTimes (s : StateStore) : Nat → Except Failure (List Json × StateStore)
  | 0 => .ok ([], s)
  | n + 1 =>
    match s.rollback with
    | .error failure => .error failure
    | .ok back => (back.rollbackTimes n).map fun r ↦ (back.state :: r.1, r.2)

end StateStore

namespace UndoStack

variable {create : Bool} {t : UndoStack}

def edit (create : Bool) (t : UndoStack) (e : Edit) : UndoStack × Option Failure :=
  match e.result create t.doc with
  | .ok doc => (t.push doc, none)
  | .error failure => (t, some failure)

/-- What a call does to an undo stack. A patch is one edit, and does nothing if it fails. -/
def call (create : Bool) (t : UndoStack) : StoreCall → UndoStack × Option Failure
  | .edit e => t.edit create e
  | .rollback =>
    match t.undo? with
    | some back => (back, none)
    | none => (t, some (.state "no state history to roll back to"))
  | .restore doc => ({ t with doc }, none)
  | .clear => ({ t with doc := .null, past := [], fits := Nat.zero_le t.room }, none)
  | .enableHistory n => (t.resize (max n 1), none)
  | .disableHistory => (t.resize 0, none)

def callAll (create : Bool) (t : UndoStack) : List StoreCall → UndoStack × List (Option Failure)
  | [] => (t, [])
  | c :: calls =>
    let (rest, outcomes) := (t.call create c).1.callAll create calls
    (rest, (t.call create c).2 :: outcomes)

/-! ## The store of an undo stack -/

/-- The store that an undo stack stands for. It has no limit if there is no room. -/
def store (create : Bool) (t : UndoStack) : StateStore where
  state := t.doc
  history := t.past
  limit := if t.room = 0 then none else some t.room
  createParents := create

theorem past_eq_nil_of_room_eq_zero (h : t.room = 0) : t.past = [] := by
  have hfits := t.fits
  rw [h] at hfits
  exact List.eq_nil_of_length_eq_zero (Nat.le_zero.mp hfits)

/-- Dropping the oldest document of a full stack cuts it to the room there is. -/
theorem keep_eq_take {n : Nat} {docs : List Json} (hn : n ≠ 0) (h : docs.length ≤ n) (doc : Json) :
    StateStore.keep (some n) doc docs = (doc :: docs).take n := by
  obtain ⟨m, rfl⟩ := Nat.exists_eq_succ_of_ne_zero hn
  rw [StateStore.keep, List.take_succ_cons]
  by_cases hfull : docs.length = m + 1
  · have hlast : docs.dropLast = docs.take m := by
      rw [List.dropLast_eq_take, hfull, Nat.add_sub_cancel]
    rw [if_pos hfull, hlast]
  · have hroom : docs.length ≤ m := by omega
    rw [if_neg hfull, List.take_of_length_le hroom]

theorem set_store (t : UndoStack) (doc : Json) :
    (t.store create).set doc = (t.push doc).store create := by
  have hkeep : StateStore.keep (if t.room = 0 then none else some t.room) t.doc t.past =
      (t.doc :: t.past).take t.room := by
    by_cases hroom : t.room = 0
    · rw [if_pos hroom, hroom, List.take_zero]
      exact past_eq_nil_of_room_eq_zero hroom
    · rw [if_neg hroom]
      exact keep_eq_take hroom t.fits t.doc
  unfold StateStore.set store push
  dsimp only
  rw [hkeep]

theorem patch_store (t : UndoStack) (delta : Json) :
    (t.store create).patch delta =
      (Patch.result create delta t.doc).map fun doc ↦ (t.push doc).store create := by
  rw [StateStore.patch, Patch.result]
  cases Patch.ofJson delta with
  | error e => rfl
  | ok ops =>
    have hops : (t.store create).patchOps ops =
        match Patch.apply create ops t.doc with
        | (doc, none) => .ok ((t.store create).set doc)
        | (_, some failure) => .error failure := rfl
    dsimp only
    rw [hops]
    obtain ⟨doc, failure⟩ := Patch.apply create ops t.doc
    cases failure with
    | none => exact congrArg Except.ok (t.set_store doc)
    | some failure => rfl

theorem edit_store (t : UndoStack) (e : Edit) :
    (t.store create).edit e = ((t.edit create e).1.store create, (t.edit create e).2) := by
  cases e with
  | set doc => exact congrArg (·, none) (t.set_store doc)
  | patch delta =>
    rw [StateStore.edit, patch_store, edit, Edit.result]
    cases Patch.result create delta t.doc with
    | error failure => rfl
    | ok doc => rfl

theorem enableHistory_store (t : UndoStack) (n : Nat) :
    (t.store create).enableHistory n = (t.resize (max n 1)).store create := by
  have hroom : max n 1 ≠ 0 := by omega
  have hlimit : (if max n 1 = 0 then none else some (max n 1)) = some (max n 1) := if_neg hroom
  unfold StateStore.enableHistory store resize
  dsimp only
  rw [hlimit]

/-- A call of the store of an undo stack is the call of the stack. -/
theorem call_store (t : UndoStack) (c : StoreCall) :
    (t.store create).call c = ((t.call create c).1.store create, (t.call create c).2) := by
  cases c with
  | edit e => exact t.edit_store e
  | rollback =>
    obtain ⟨doc, past, room, fits⟩ := t
    cases past with
    | nil => rfl
    | cons before past => rfl
  | restore doc => rfl
  | clear => rfl
  | enableHistory n => exact congrArg (·, none) (t.enableHistory_store n)
  | disableHistory => rfl

theorem callAll_store (t : UndoStack) (calls : List StoreCall) :
    (t.store create).callAll calls =
      ((t.callAll create calls).1.store create, (t.callAll create calls).2) := by
  induction calls generalizing t with
  | nil => rfl
  | cons c calls ih => rw [StateStore.callAll, t.call_store c, ih, callAll]

/-! ## The limit -/

theorem limit_call (t : UndoStack) (c : StoreCall) :
    ((t.call create c).1.store create).limit =
      StoreCall.limitAfter (t.store create).limit [c] := by
  cases c with
  | edit e =>
    rw [call, edit]
    cases e.result create t.doc with
    | error failure => rfl
    | ok doc => rfl
  | rollback =>
    obtain ⟨doc, past, room, fits⟩ := t
    cases past with
    | nil => rfl
    | cons before past => rfl
  | restore doc => rfl
  | clear => rfl
  | enableHistory n =>
    have hroom : max n 1 ≠ 0 := by omega
    exact if_neg hroom
  | disableHistory => rfl

theorem limitAfter_cons (limit : Option Nat) (c : StoreCall) (calls : List StoreCall) :
    StoreCall.limitAfter limit (c :: calls) =
      StoreCall.limitAfter (StoreCall.limitAfter limit [c]) calls := by
  cases c <;> rfl

theorem limit_callAll (t : UndoStack) (calls : List StoreCall) :
    ((t.callAll create calls).1.store create).limit =
      StoreCall.limitAfter (t.store create).limit calls := by
  induction calls generalizing t with
  | nil => rfl
  | cons c calls ih =>
    rw [limitAfter_cons, ← limit_call]
    exact ih (t.call create c).1

theorem getD_limit_store (t : UndoStack) : (t.store create).limit.getD 0 = t.room := by
  rw [store]
  split
  · rename_i hroom
    rw [Option.getD_none, hroom]
  · rw [Option.getD_some]

/-! ## Edits and rollbacks -/

/-- Some edits put the documents that they replace on the stack. -/
theorem editAll_store (create : Bool) (t : UndoStack) (edits : List Edit) :
    ∃ t' : UndoStack, (t.store create).editAll edits = t'.store create ∧ t'.room = t.room ∧
      t'.past = (Edit.replaced create t.doc edits ++ t.past).take t.room := by
  induction edits generalizing t with
  | nil => exact ⟨t, rfl, rfl, (List.take_of_length_le t.fits).symm⟩
  | cons e edits ih =>
    rw [StateStore.editAll, edit_store, edit, Edit.replaced]
    cases e.result create t.doc with
    | error failure => exact ih t
    | ok doc =>
      obtain ⟨t', hstore, hroom, hpast⟩ := ih (t.push doc)
      refine ⟨t', hstore, hroom, hpast.trans ?_⟩
      -- what the first edit left of the past is cut again, to the same room
      have hpush : (t.push doc).past = (t.doc :: t.past).take t.room := rfl
      have hdoc : (t.push doc).doc = doc := rfl
      have hsame : (t.push doc).room = t.room := rfl
      rw [hpush, hdoc, hsame, List.append_assoc, List.singleton_append, List.take_append,
        List.take_append, List.take_take, Nat.min_eq_left (Nat.sub_le _ _)]

/-- Rolling back brings the documents kept back, newest first. -/
theorem exists_rollbackTimes (s : StateStore) {docs kept : List Json}
    (h : s.history = docs ++ kept) :
    ∃ back, s.rollbackTimes docs.length = .ok (docs, back) := by
  induction docs generalizing s with
  | nil => exact ⟨s, rfl⟩
  | cons doc docs ih =>
    have hback : s.rollback = .ok { s with state := doc, history := docs ++ kept } := by
      rw [StateStore.rollback, h]
      rfl
    obtain ⟨back, hrest⟩ := ih { s with state := doc, history := docs ++ kept } rfl
    refine ⟨back, ?_⟩
    rw [List.length_cons, StateStore.rollbackTimes, hback]
    dsimp only
    rw [hrest]
    rfl

/-- **The history is a bounded undo stack.** A store does what an undo stack does, call by call, and
fails when it fails. It keeps no documents while it has no limit, and never more than its limit.
After any edits, as many rollbacks as the edits replaced documents, or as there is room for, bring
these documents back, newest first. -/
theorem callAll_eq_undoStack (create : Bool) (doc : Json) (calls : List StoreCall)
    (edits : List Edit) :
    let fresh : StateStore := { state := doc, createParents := create }
    let stack := (UndoStack.fresh doc).callAll create calls
    let s := (fresh.callAll calls).1
    fresh.callAll calls = (stack.1.store create, stack.2) ∧
      s.limit = StoreCall.limitAfter none calls ∧
      (s.limit = none → s.history = []) ∧
      (∀ n, s.limit = some n → s.history.length ≤ n) ∧
      let replaced := Edit.replaced create s.state edits
      let room := s.limit.getD 0
      ∃ back, (s.editAll edits).rollbackTimes (min replaced.length room) =
        .ok (replaced.take room, back) := by
  intro fresh stack s
  have hfresh : fresh = (UndoStack.fresh doc).store create := rfl
  have hrun : fresh.callAll calls = (stack.1.store create, stack.2) := by
    rw [hfresh]
    exact callAll_store _ calls
  have hs : s = stack.1.store create := congrArg Prod.fst hrun
  have hroom : s.limit.getD 0 = stack.1.room := by rw [hs, getD_limit_store]
  have hhistory : s.history = stack.1.past := by rw [hs, store]
  refine ⟨hrun, ?_, fun hnone ↦ ?_, fun n hsome ↦ ?_, ?_⟩
  · rw [hs]
    exact limit_callAll _ calls
  · rw [hnone, Option.getD_none] at hroom
    rw [hhistory, past_eq_nil_of_room_eq_zero hroom.symm]
  · rw [hsome, Option.getD_some] at hroom
    rw [hhistory, hroom]
    exact stack.1.fits
  · intro replaced room
    obtain ⟨t', hstore, -, hpast⟩ := stack.1.editAll_store create edits
    have hedited : (s.editAll edits).history = replaced.take room ++
        stack.1.past.take (room - replaced.length) := by
      have hdoc : s.state = stack.1.doc := by rw [hs, store]
      rw [hs, hstore, store, hpast, List.take_append]
      simp only [replaced, room, hdoc, hroom]
    obtain ⟨back, hback⟩ := exists_rollbackTimes _ hedited
    refine ⟨back, ?_⟩
    rw [List.length_take, Nat.min_comm] at hback
    exact hback

/-- With room for two documents, three are replaced, and a patch in between cannot be read. Two
rollbacks bring the last two back, and the first is gone. -/
theorem callAll_eq_undoStack_evicts :
    let fresh : StateStore := {}
    let s := (fresh.callAll [.enableHistory 2]).1
    let edits : List Edit := [.set (.int 1), .patch .null, .set (.int 2), .set (.int 3)]
    s.limit = some 2 ∧ Edit.replaced false s.state edits = [.int 2, .int 1, .empty] ∧
      ∃ back, (s.editAll edits).rollbackTimes 2 = .ok ([.int 2, .int 1], back) := by
  intro fresh s edits
  have hreplaced : Edit.replaced false s.state edits = [.int 2, .int 1, .empty] := rfl
  obtain ⟨-, hlimit, -, -, back, hback⟩ :=
    callAll_eq_undoStack false .empty [.enableHistory 2] edits
  exact ⟨hlimit, hreplaced, back, hback⟩

end UndoStack

end AgentSession
