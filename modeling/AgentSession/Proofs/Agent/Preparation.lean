import AgentSession.Agent.Run
/-!
# Preparing a run

Whatever becomes of a run, preparing it leaves its mark on the session: the messages of the caller
are added to it, each of which the subscribers are told of, and the document of the caller replaces
its state (`Agent.absorb_eq`). Then identifiers may be drawn (`Agent.exists_assemble`), and the
stages act on the request, which the session does not notice (`Agent.prepare_snd`).
-/

namespace AgentSession

variable {σ : Type}

/-- The session with what a caller brings: messages, and possibly a state document. -/
def Session.absorbed (s : Session) (params : RunParams) : Session :=
  let s := { s with messages := s.messages ++ params.messages }
  match params.state with
  | some doc => s.setState doc
  | none => s

@[simp] theorem Session.messages_absorbed (s : Session) (params : RunParams) :
    (s.absorbed params).messages = s.messages ++ params.messages := by
  rw [absorbed]
  cases params.state with
  | none => rfl
  | some doc => rfl

namespace Agent

theorem foldl_receive (a : Agent σ) (messages : List Message) :
    messages.foldl receive a =
      { a with
        session := { a.session with messages := a.session.messages ++ messages }
        memory :=
          Subscriber.tellAll a.subscribers.values (messages.map .newMessage) a.memory } := by
  induction messages generalizing a with
  | nil =>
    rw [List.append_nil]
    rfl
  | cons m rest ih =>
    have hm : (a.receive m).session.messages ++ rest = a.session.messages ++ m :: rest :=
      (List.append_cons ..).symm
    rw [List.foldl_cons, ih, hm]
    rfl

/-- **What the caller brings.** Its messages and its document reach the session, and subscribers are
told of the messages. -/
theorem absorb_eq (a : Agent σ) (params : RunParams) :
    a.absorb params =
      { a with
        session := a.session.absorbed params
        memory := Subscriber.tellAll a.subscribers.values (params.messages.map .newMessage)
          a.memory } := by
  rw [absorb, foldl_receive, Session.absorbed]
  cases params.state with
  | none => rfl
  | some doc => rfl

theorem exists_idOr (a : Agent σ) (kind : IdKind) (given : Option String) :
    ∃ ids, (a.idOr kind given).2 = { a with session := { a.session with ids } } := by
  cases given with
  | none => exact ⟨_, rfl⟩
  | some id => exact ⟨a.session.ids, rfl⟩

/-- To assemble a request, no more is done to an agent than to draw identifiers. -/
theorem exists_assemble (a : Agent σ) (params : RunParams) :
    ∃ ids, (a.assemble params).2 = { a with session := { a.session with ids } } := by
  obtain ⟨ids, hthread⟩ := a.exists_idOr .thread params.threadId
  obtain ⟨ids', hrun⟩ := (a.idOr .thread params.threadId).2.exists_idOr .run params.runId
  refine ⟨ids', ?_⟩
  change ((a.idOr .thread params.threadId).2.idOr .run params.runId).2 = _
  rw [hrun, hthread]

/-- What is left of an agent that has prepared a run, whether or not the run is refused. -/
theorem prepare_snd (a : Agent σ) (params : RunParams) :
    (a.prepare params).2 =
      let (input, b) := (a.absorb params).assemble params
      b.resume (Chain.request b.stages.values input (b.scene none [])).2 := by
  rw [prepare]
  dsimp only
  split
  · rfl
  · rfl

theorem messages_prepare (a : Agent σ) (params : RunParams) :
    (a.prepare params).2.session.messages = a.session.messages ++ params.messages := by
  obtain ⟨ids, hids⟩ := (a.absorb params).exists_assemble params
  rw [prepare_snd]
  change ((a.absorb params).assemble params).2.session.messages = _
  rw [hids, absorb_eq]
  exact a.session.messages_absorbed params

/-- To take up what the caller brings and to assemble the request changes the session and what is
remembered, and nothing else. -/
theorem exists_absorb_assemble (a : Agent σ) (params : RunParams) :
    ∃ input session memory,
      (a.absorb params).assemble params = (input, { a with session, memory }) := by
  obtain ⟨ids, hids⟩ := (a.absorb params).exists_assemble params
  rw [absorb_eq] at hids ⊢
  exact ⟨_, _, _, Prod.ext rfl hids⟩

theorem endpoint_prepare (a : Agent σ) (params : RunParams) :
    (a.prepare params).2.endpoint = a.endpoint := by
  obtain ⟨input, session, memory, h⟩ := a.exists_absorb_assemble params
  rw [prepare_snd, h]
  rfl

end Agent

end AgentSession
