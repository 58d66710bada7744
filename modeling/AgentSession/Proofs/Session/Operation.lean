import AgentSession.Session.Handle
/-!
# Operations on a session

What is done to a session between the beginning of a run and its end: events are handled, what
subscribers ask for is committed, and messages or the state document are replaced from outside. Each
event comes with subscribers and a memory of its own, so a list of operations is a run with
arbitrary subscribers, which may be exchanged at any time.

## Events that take effect

The subscribers can keep an event from being applied: one of them fails or asks to stop when asked
in general. An event that is applied may fail. `Session.applied` tells which events of a list of
operations were applied without failure, each with the session that it was applied to.
-/

namespace AgentSession

variable {σ : Type}

/-- What is done to a session. -/
inductive Operation (σ : Type) where
  | handle (subscribers : List (Subscriber σ)) (e : Event) (memory : σ)
  | commit (m : Mutation)
  | addMessage (m : Message)
  | setMessages (messages : List Message)
  /-- The state document is replaced, or an earlier one is restored. -/
  | setStore (store : StateStore)

namespace Session

/-! ## Asking subscribers -/

/-- What the subscribers answer to an event in general. -/
def askGeneral (s : Session) (subscribers : List (Subscriber σ)) (e : Event) (memory : σ) :
    Answer σ :=
  Subscriber.askAll (fun b ↦ b.onEvent e s.view) subscribers memory

/-- What the subscribers answer to what an event says, together with a text. -/
def askKind (s : Session) (subscribers : List (Subscriber σ)) (k : EventKind) (text : String)
    (memory : σ) : Answer σ :=
  Subscriber.askAll (fun b ↦ b.onKind k text s.view) subscribers memory

/-- No subscriber fails or asks to stop when asked in general, so the event is applied. -/
def passes (s : Session) (subscribers : List (Subscriber σ)) (e : Event) (memory : σ) : Bool :=
  match (s.askGeneral subscribers e memory).1 with
  | .ok m => !m.stop
  | .error _ => false

/-! ## Handling an event -/

variable {s : Session} {subscribers : List (Subscriber σ)} {e : Event} {memory : σ}

theorem passes_iff : s.passes subscribers e memory = true ↔
    ∃ m, (s.askGeneral subscribers e memory).1 = .ok m ∧ m.stop = false := by
  rw [passes]
  split
  · rename_i m hm
    simp [hm]
  · rename_i failure hfailure
    simp [hfailure]

/-- The memory after an event was applied and the subscribers were told. -/
def memoryAfter (s : Session) (subscribers : List (Subscriber σ)) (e : Event) (memory : σ) : σ :=
  Subscriber.tellAll subscribers (s.apply e.kind).notices (s.askGeneral subscribers e memory).2

/-- The phases of handling an event, told from what the subscribers answer in general. -/
theorem handle_eq {answer : Except Failure Mutation}
    (h : (s.askGeneral subscribers e memory).1 = answer) :
    s.handle subscribers e memory =
      match answer with
      | .error failure => ⟨s, (s.askGeneral subscribers e memory).2, .error failure⟩
      | .ok m =>
        if m.stop then ⟨s, (s.askGeneral subscribers e memory).2, .ok m⟩
        else
          match (s.apply e.kind).outcome with
          | .error failure =>
            ⟨(s.apply e.kind).session, s.memoryAfter subscribers e memory, .error failure⟩
          | .ok text =>
            let answer := (s.apply e.kind).session.askKind subscribers e.kind text
              (s.memoryAfter subscribers e memory)
            ⟨(s.apply e.kind).session, answer.2, answer.1⟩ := by
  have hasked : s.askGeneral subscribers e memory =
      (answer, (s.askGeneral subscribers e memory).2) := Prod.ext h rfl
  unfold askGeneral at hasked
  rw [handle, hasked]
  cases answer with
  | error failure => rfl
  | ok m => rfl

theorem handle_of_askGeneral_error {failure : Failure}
    (h : (s.askGeneral subscribers e memory).1 = .error failure) :
    s.handle subscribers e memory =
      ⟨s, (s.askGeneral subscribers e memory).2, .error failure⟩ := handle_eq h

theorem handle_of_stop {m : Mutation} (h : (s.askGeneral subscribers e memory).1 = .ok m)
    (hstop : m.stop = true) :
    s.handle subscribers e memory = ⟨s, (s.askGeneral subscribers e memory).2, .ok m⟩ :=
  (handle_eq h).trans (if_pos hstop)

theorem handle_of_apply_error (hpasses : s.passes subscribers e memory = true) {failure : Failure}
    (h : (s.apply e.kind).outcome = .error failure) :
    s.handle subscribers e memory =
      ⟨(s.apply e.kind).session, s.memoryAfter subscribers e memory, .error failure⟩ := by
  obtain ⟨m, hm, hstop⟩ := passes_iff.1 hpasses
  rw [handle_eq hm]
  dsimp only
  rw [hstop, if_neg Bool.false_ne_true, h]

theorem handle_of_apply_ok (hpasses : s.passes subscribers e memory = true) {text : String}
    (h : (s.apply e.kind).outcome = .ok text) :
    let answer := (s.apply e.kind).session.askKind subscribers e.kind text
      (s.memoryAfter subscribers e memory)
    s.handle subscribers e memory = ⟨(s.apply e.kind).session, answer.2, answer.1⟩ := by
  obtain ⟨m, hm, hstop⟩ := passes_iff.1 hpasses
  rw [handle_eq hm]
  dsimp only
  rw [hstop, if_neg Bool.false_ne_true, h]

/-- An event that is not applied has only been asked about. -/
theorem handle_of_not_passes (h : ¬s.passes subscribers e memory = true) :
    (s.handle subscribers e memory).session = s ∧
      (s.handle subscribers e memory).memory = (s.askGeneral subscribers e memory).2 := by
  cases hasked : (s.askGeneral subscribers e memory).1 with
  | error failure =>
    rw [handle_of_askGeneral_error hasked]
    exact ⟨rfl, rfl⟩
  | ok m =>
    cases hstop : m.stop with
    | true =>
      rw [handle_of_stop hasked hstop]
      exact ⟨rfl, rfl⟩
    | false => exact absurd (passes_iff.2 ⟨m, hasked, hstop⟩) h

/-- Handling an event leaves the session as it is, or as applying the event leaves it. -/
theorem handle_session (s : Session) (subscribers : List (Subscriber σ)) (e : Event) (memory : σ) :
    (s.handle subscribers e memory).session =
      if s.passes subscribers e memory then (s.apply e.kind).session else s := by
  by_cases hpasses : s.passes subscribers e memory = true
  · rw [if_pos hpasses]
    cases h : (s.apply e.kind).outcome with
    | error failure => rw [handle_of_apply_error hpasses h]
    | ok text => rw [handle_of_apply_ok hpasses h]
  · rw [if_neg hpasses, (handle_of_not_passes hpasses).1]

/-- An event that was handled, without a failure and without a request to stop, was applied without
failure. -/
theorem apply_ok_of_handle_ok {m : Mutation}
    (h : (s.handle subscribers e memory).outcome = .ok m) (hstop : m.stop = false) :
    s.passes subscribers e memory = true ∧ ∃ text, (s.apply e.kind).outcome = .ok text := by
  have hpasses : s.passes subscribers e memory = true := by
    cases hasked : (s.askGeneral subscribers e memory).1 with
    | error failure =>
      rw [handle_of_askGeneral_error hasked] at h
      cases h
    | ok general =>
      cases hgeneral : general.stop with
      | true =>
        -- a request to stop in general is itself the outcome
        rw [handle_of_stop hasked hgeneral] at h
        cases h
        rw [hgeneral] at hstop
        cases hstop
      | false => exact passes_iff.2 ⟨general, hasked, hgeneral⟩
  refine ⟨hpasses, ?_⟩
  cases houtcome : (s.apply e.kind).outcome with
  | error failure =>
    rw [handle_of_apply_error hpasses houtcome] at h
    cases h
  | ok text => exact ⟨text, rfl⟩

/-! ## Lists of operations -/

def perform (s : Session) : Operation σ → Session
  | .handle subscribers e memory => (s.handle subscribers e memory).session
  | .commit m => s.mutate m
  | .addMessage m => s.addMessage m
  | .setMessages messages => { s with messages }
  | .setStore store => { s with store }

def performAll (s : Session) : List (Operation σ) → Session
  | [] => s
  | op :: ops => (s.perform op).performAll ops

theorem performAll_append (s : Session) (xs ys : List (Operation σ)) :
    s.performAll (xs ++ ys) = (s.performAll xs).performAll ys := by
  induction xs generalizing s with
  | nil => rfl
  | cons x xs ih => exact ih (s.perform x)

/-- What an event said that an operation applied without failure. -/
def applied? (s : Session) : Operation σ → Option EventKind
  | .handle subscribers e memory =>
    if s.passes subscribers e memory && (s.apply e.kind).outcome.isOk then some e.kind else none
  | _ => none

/-- The events that some operations applied without failure, each with the session that it was
applied to. -/
def applied (s : Session) : List (Operation σ) → List (Session × EventKind)
  | [] => []
  | op :: ops => ((s.applied? op).map fun k ↦ (s, k)).toList ++ (s.perform op).applied ops

end Session

end AgentSession
