import AgentSession.Proofs.Session.Growth
import AgentSession.Proofs.Session.Operation
/-!
# Distinct identifiers

The messages of a session have distinct identifiers, and so have the tool calls of each message,
whatever happens to the session: a message or a tool call that an event adds is one that was not
there (`Message.Step`), if the identifiers that are drawn are fresh.

What is brought from outside has to be distinct itself (`Session.Admissible`): a list of messages
that replaces another, and a message that is added. For the latter a new identifier is not enough.
A message that holds two tool calls with one identifier is added as it is
(`Session.distinct_performAll_repeated_call`).
-/

namespace AgentSession

variable {σ : Type}

namespace Message

variable {fresh : Prop} {ms ms' : List Message} {m m' : Message}

theorem Grows.nodup (h : Grows m m') (hcalls : (m.toolCalls.map ToolCall.id).Nodup) :
    (m'.toolCalls.map ToolCall.id).Nodup := by
  rcases h.calls with heq | ⟨callId, hnew, heq⟩
  · rw [heq]
    exact hcalls
  · rw [heq, ← List.concat_eq_append]
    exact hcalls.concat hnew

theorem Distinct.step (h : Distinct ms) (hfresh : fresh) (hstep : Step fresh ms ms') :
    Distinct ms' := by
  cases hstep with
  | grow hchanged => exact h.changed hchanged fun m m' hm hcalls ↦ ⟨hm.id_eq, hm.nodup hcalls⟩
  | add hcalls hid =>
    refine h.concat (hid hfresh) ?_
    rw [hcalls]
    exact List.nodup_nil

theorem Distinct.steps (h : Distinct ms) (hfresh : fresh) (hsteps : Steps fresh ms ms') :
    Distinct ms' := by
  induction hsteps with
  | refl => exact h
  | tail _ hstep ih => exact ih.step hfresh hstep

end Message

namespace Session

open Message (Distinct)

variable {s : Session}

/-- **One event.** Identifiers stay distinct if those of a list of messages that the event brings
are, and if the identifier that it draws is fresh. -/
theorem distinct_apply {k : EventKind} (h : Distinct s.messages) (hfresh : s.DrawsFresh k)
    (hlist : ∀ messages, k = .messagesSnapshot messages → Distinct messages) :
    Distinct (s.apply k).session.messages := by
  by_cases hsnapshot : ∃ messages, k = .messagesSnapshot messages
  · obtain ⟨messages, rfl⟩ := hsnapshot
    exact hlist messages rfl
  · exact h.steps hfresh (steps_apply fun messages heq ↦ hsnapshot ⟨messages, heq⟩)

/-! ## All operations -/

/-- What an operation brings is new or distinct: a list of messages is distinct, a message that is
added has an identifier that no message has, and an identifier that is drawn is fresh. -/
def Admissible (s : Session) : Operation σ → Prop
  | .handle subscribers e memory =>
    s.passes subscribers e memory = true →
      s.DrawsFresh e.kind ∧
        ∀ messages, e.kind = .messagesSnapshot messages → Distinct messages
  | .commit m => ∀ messages, m.messages = some messages → Distinct messages
  | .addMessage m => m.id ∉ s.messages.map Message.id
  | .setMessages messages => Distinct messages
  | .setStore _ => True

/-- Each of some operations is admissible for the session that it is performed on. -/
def AllAdmissible (s : Session) : List (Operation σ) → Prop
  | [] => True
  | op :: ops => s.Admissible op ∧ (s.perform op).AllAdmissible ops

theorem distinct_perform {op : Operation σ} (h : Distinct s.messages) (hop : s.Admissible op)
    (hcalls : ∀ m, op = .addMessage m → (m.toolCalls.map ToolCall.id).Nodup) :
    Distinct (s.perform op).messages := by
  cases op with
  | handle subscribers e memory =>
    change Distinct (s.handle subscribers e memory).session.messages
    rw [handle_session]
    split
    · rename_i hpasses
      obtain ⟨hfresh, hlist⟩ := hop hpasses
      exact distinct_apply h hfresh hlist
    · exact h
  | commit m =>
    have hmessages : (s.mutate m).messages = m.messages.getD s.messages := by
      obtain ⟨messages, state, stop⟩ := m
      cases messages with
      | none => cases state <;> rfl
      | some messages => cases state <;> rfl
    change Distinct (s.mutate m).messages
    rw [hmessages]
    cases hm : m.messages with
    | none => exact h
    | some messages => exact hop messages hm
  | addMessage m => exact h.concat hop (hcalls m rfl)
  | setMessages messages => exact hop
  | setStore store => exact h

/-- **Distinct identifiers.** Let a session have distinct identifiers, and let some operations bring
nothing that is not new or distinct, and no message with two tool calls of the same identifier. Then
its identifiers are distinct after them. -/
theorem distinct_performAll (s : Session) (ops : List (Operation σ)) (h : Distinct s.messages)
    (hops : s.AllAdmissible ops)
    (hcalls : ∀ m, .addMessage m ∈ ops → (m.toolCalls.map ToolCall.id).Nodup) :
    Distinct (s.performAll ops).messages := by
  induction ops generalizing s with
  | nil => exact h
  | cons op ops ih =>
    obtain ⟨hop, hops⟩ := hops
    refine ih (s.perform op) (distinct_perform h hop fun m hm ↦ ?_) hops fun m hm ↦ ?_
    · exact hcalls m (hm ▸ List.mem_cons_self)
    · exact hcalls m (List.mem_cons_of_mem op hm)

/-- A tool call is started without a message and loses it to a new list, a piece of it arrives, its
result asks for an identifier that is taken, and a message is added. -/
theorem distinct_performAll_displaced_call :
    let s : Session := { messages := [{ id := "u", role := .user }] }
    let handled (kind : EventKind) : Operation Unit := .handle [] { kind, timestamp := 0 } ()
    let ops : List (Operation Unit) :=
      [handled (.toolCallStart "t" "f" none),
        handled (.messagesSnapshot [{ id := "u", role := .user }, { id := "", role := .tool }]),
        handled (.toolCallChunk "t" none none "x"),
        handled (.toolCallResult (some "u") "t" "done"),
        handled .thinkingTextMessageStart,
        .addMessage { id := "a", role := .assistant, toolCalls := [ToolCall.new "t" "f"] }]
    s.AllAdmissible ops ∧ Distinct (s.performAll ops).messages ∧
      (s.performAll ops).messages.map Message.id =
        ["u", "", "msg_2", "tlr_3", "thk_4", "a"] := by
  intro s handled ops
  have hops : s.AllAdmissible ops := by
    refine ⟨fun _ ↦ ⟨?_, nofun⟩, fun _ ↦ ⟨?_, ?_⟩, fun _ ↦ ⟨?_, nofun⟩, fun _ ↦ ⟨?_, nofun⟩,
      fun _ ↦ ⟨?_, nofun⟩, ?_, trivial⟩
    · rintro - kind ⟨⟩
      decide
    · rintro - kind ⟨⟩
    · rintro messages ⟨⟩
      exact ⟨by decide, by decide⟩
    · rintro - kind ⟨⟩
      decide
    · rintro - kind ⟨⟩
      decide
    · rintro - kind ⟨⟩
      decide
    · change ¬_
      decide
  have hcalls : ∀ m, .addMessage m ∈ ops → (m.toolCalls.map ToolCall.id).Nodup := by
    intro m hm
    simp only [ops, handled, List.mem_cons, reduceCtorEq, List.not_mem_nil, false_or, or_false,
      Operation.addMessage.injEq] at hm
    rw [hm]
    decide
  refine ⟨hops, distinct_performAll s ops ⟨by decide, by decide⟩ hops hcalls, by decide⟩

/-- A message is added as it is, so a new identifier does not keep it from holding two tool calls
with the same identifier. -/
theorem distinct_performAll_repeated_call :
    let s : Session := {}
    let m : Message :=
      { id := "a", role := .assistant, toolCalls := [ToolCall.new "t" "f", ToolCall.new "t" "g"] }
    let ops : List (Operation Unit) := [.addMessage m]
    Distinct s.messages ∧ s.AllAdmissible ops ∧ ¬Distinct (s.performAll ops).messages := by
  intro s m ops
  refine ⟨⟨List.nodup_nil, nofun⟩, ⟨List.not_mem_nil, trivial⟩, fun hdistinct ↦ ?_⟩
  have hcalls := hdistinct.calls m (List.mem_singleton_self m)
  revert hcalls
  decide

end Session

end AgentSession
