import AgentSession.Proofs.Session.Effects
import Mathlib.Logic.Relation
/-!
# How messages grow

Only a list of messages that replaces the old one takes messages away. All other kinds of events
let the messages grow, in a few steps: one message gains text, a tool call or arguments of a tool
call, or a message without tool calls is added at the end (`Message.Step`). That every event does no
more than this is said once, in `Session.steps_apply`, and what holds of the messages for good is
shown for one step.

A message that is added has an identifier that no message has, provided that identifiers are drawn
afresh. Where this does not matter, the proposition `fresh` is left open.
-/

namespace AgentSession

namespace Message

variable {fresh : Prop} {ms ms' : List Message} {m m' : Message} {id callId delta : String}

/-- What an event may do to one message: add text to it, add a tool call that it does not hold, or
add arguments to one of its tool calls. -/
inductive Grows : Message → Message → Prop
  | text (m : Message) (delta : String) : Grows m (m.append delta)
  | call {m : Message} {call : ToolCall} (h : m.findToolCall? call.id = none) :
      Grows m (m.addToolCall call)
  | arguments {m m' : Message} {callId delta : String}
      (h : appendArguments? callId delta m = some m') : Grows m m'

/-- One message grows, or one without tool calls is added at the end. -/
inductive Step (fresh : Prop) : List Message → List Message → Prop
  | grow {ms ms' : List Message} (h : Changed Grows ms ms') : Step fresh ms ms'
  | add {ms : List Message} {m : Message} (hcalls : m.toolCalls = [])
      (hid : fresh → m.id ∉ ms.map Message.id) : Step fresh ms (ms ++ [m])

abbrev Steps (fresh : Prop) : List Message → List Message → Prop :=
  Relation.ReflTransGen (Step fresh)

theorem Grows.id_eq (h : Grows m m') : m'.id = m.id := by
  cases h with
  | text delta => rfl
  | call h => rfl
  | arguments h => exact (ids_of_appendArguments? h).1

/-- A message that grows keeps its tool calls in their order, and gains at most one. -/
theorem Grows.calls (h : Grows m m') :
    m'.toolCalls.map ToolCall.id = m.toolCalls.map ToolCall.id ∨
      ∃ callId, callId ∉ m.toolCalls.map ToolCall.id ∧
        m'.toolCalls.map ToolCall.id = m.toolCalls.map ToolCall.id ++ [callId] := by
  cases h with
  | text delta => exact .inl rfl
  | @call call h =>
    refine .inr ⟨call.id, fun hmem ↦ ?_, ?_⟩
    · obtain ⟨other, hother, hid⟩ := List.mem_map.1 hmem
      exact findToolCall?_eq_none_iff.1 h other hother hid
    · rw [addToolCall, List.map_append, List.map_singleton]
  | arguments h => exact .inl (ids_of_appendArguments? h).2

/-! ## Steps of single operations -/

theorem steps_of_changed {R : Message → Message → Prop} (h : Changed R ms ms')
    (hR : ∀ m m', R m m' → Grows m m') : Steps fresh ms ms' :=
  .single (.grow (h.imp hR))

theorem steps_concat (hcalls : m.toolCalls = []) (hid : fresh → m.id ∉ ms.map Message.id) :
    Steps fresh ms (ms ++ [m]) :=
  .single (.add hcalls hid)

theorem steps_ensured (ms : List Message) (id : String) : Steps fresh ms (ensured ms id) := by
  rw [ensured]
  cases hhas : has ms id with
  | true => exact .refl
  | false => exact steps_concat rfl fun _ ↦ has_eq_false_iff.1 hhas

theorem steps_of_appendTo? (h : appendTo? ms id delta = some ms') : Steps fresh ms ms' := by
  refine steps_of_changed (changed_of_modify? h) fun m m' ⟨_, hm⟩ ↦ ?_
  obtain rfl := Option.some.inj hm
  exact .text m delta

theorem notMem_of_appendTo?_eq_none (h : appendTo? ms id delta = none) :
    id ∉ ms.map Message.id := by
  intro hid
  obtain ⟨m, hm, rfl⟩ := List.mem_map.1 hid
  have hhas : has ms m.id = true := List.any_eq_true.2 ⟨m, hm, beq_self_eq_true m.id⟩
  rw [has_eq_isSome_find?] at hhas
  obtain ⟨found, hfound⟩ := Option.isSome_iff_exists.1 hhas
  exact Option.some_ne_none _ (modify?_eq_none_iff.1 h found hfound)

theorem steps_appendToLast (ms : List Message) (delta : String) :
    Steps fresh ms (appendToLast delta ms) := by
  by_cases hnil : ms = []
  · rw [hnil]
    exact .refl
  · refine steps_of_changed (changed_appendToLast delta hnil) fun m m' hm ↦ ?_
    rw [hm]
    exact .text m delta

end Message

namespace Session

open Message (Steps)

variable {fresh : Prop} {s : Session} {callId name delta : String} {requested : Option String}

/-! ## Steps of an event -/

theorem steps_appendArguments (s : Session) (callId delta : String) :
    Steps fresh s.messages ((s.appendArguments? callId delta).getD s.messages) := by
  cases happend : s.appendArguments? callId delta with
  | none => exact .refl
  | some messages =>
    exact Message.steps_of_changed (changed_of_appendArguments? happend) fun _ _ ↦ .arguments

theorem steps_resolveParent
    (hfresh : fresh → (s.resolveParent requested).2.1.ids.drawn ≠ s.ids.drawn →
      (s.drawId .message).1 ∉ s.messages.map Message.id) :
    Steps fresh s.messages (s.resolveParent requested).2.1.messages := by
  rcases s.resolveParent_cases requested with ⟨id, -, heq⟩ | ⟨id, ids, heq, hid⟩
  · rw [heq]
  · rw [heq] at hfresh ⊢
    refine Message.steps_concat rfl fun h ↦ ?_
    rcases hid with hid | ⟨hdrawn, rfl⟩
    · exact hid
    · exact hfresh h hdrawn

theorem steps_openToolCall
    (hfresh : fresh →
      (s.openToolCall callId name requested).session.ids.drawn ≠ s.ids.drawn →
        (s.drawId .message).1 ∉ s.messages.map Message.id) :
    Steps fresh s.messages (s.openToolCall callId name requested).session.messages := by
  obtain ⟨parent, hparent, ⟨-, heq⟩ | ⟨hcall, messages, hmessages, heq⟩⟩ :=
    s.openToolCall_cases callId name requested
  · rw [heq] at hfresh ⊢
    exact steps_resolveParent hfresh
  · rw [heq] at hfresh ⊢
    -- the message may be added first, and is then found to be the one without the call
    refine (steps_resolveParent hfresh).trans
      (Message.steps_of_changed (Message.changed_of_modify? hmessages) ?_)
    rintro m m' ⟨hm, hadd⟩
    obtain rfl : parent = m := Option.some.inj (hparent.symm.trans hm)
    obtain rfl := Option.some.inj hadd
    exact .call hcall

theorem steps_startCall
    (hfresh : fresh →
      (s.startCall callId name requested).session.ids.drawn ≠ s.ids.drawn →
        (s.drawId .message).1 ∉ s.messages.map Message.id) :
    Steps fresh s.messages (s.startCall callId name requested).session.messages := by
  cases hopen : (s.openToolCall callId name requested).outcome with
  | error failure =>
    rw [startCall_of_error hopen] at hfresh ⊢
    exact steps_openToolCall hfresh
  | ok parentId =>
    rw [startCall_of_ok hopen] at hfresh ⊢
    exact steps_openToolCall hfresh

theorem steps_chunkCall {callName : Option String}
    (hfresh : fresh →
      (s.chunkCall callId callName requested delta).session.ids.drawn ≠ s.ids.drawn →
        (s.drawId .message).1 ∉ s.messages.map Message.id) :
    Steps fresh s.messages (s.chunkCall callId callName requested delta).session.messages := by
  cases hfound : s.appendArguments? callId delta with
  | some messages =>
    have hsteps : Steps fresh s.messages ((s.appendArguments? callId delta).getD s.messages) :=
      s.steps_appendArguments callId delta
    rw [hfound] at hsteps
    rw [chunkCall_of_some hfound]
    exact hsteps
  | none =>
    cases hopen : (s.openToolCall callId (callName.getD "") requested).outcome with
    | error failure =>
      rw [chunkCall_of_error hfound hopen] at hfresh ⊢
      exact steps_openToolCall hfresh
    | ok parentId =>
      rw [chunkCall_of_ok hfound hopen] at hfresh ⊢
      exact (steps_openToolCall hfresh).trans (steps_appendArguments _ callId delta)

theorem steps_chunkText (s : Session) (id : String) (role : Option Role) (delta : String) :
    Steps fresh s.messages (s.chunkText id role delta).session.messages := by
  have hlocated : (s.chunkTarget id).2.messages = s.messages := by
    obtain ⟨ids, heq⟩ := s.chunkTarget_session id
    rw [heq]
  rw [← hlocated]
  rcases s.chunkText_cases id role delta with ⟨messages, happend, heq⟩ | ⟨hnone, heq⟩
  · rw [heq]
    exact Message.steps_of_appendTo? happend
  · rw [heq]
    exact Message.steps_concat rfl fun _ ↦ Message.notMem_of_appendTo?_eq_none hnone

theorem steps_resultOfCall {messageId : Option String} {result : String}
    (hfresh : fresh →
      (s.resultOfCall messageId callId result).session.ids.drawn ≠ s.ids.drawn →
        (s.drawId .toolResult).1 ∉ s.messages.map Message.id) :
    Steps fresh s.messages (s.resultOfCall messageId callId result).session.messages := by
  rcases s.resultOfCall_cases messageId callId result with ⟨id, hid, heq⟩ | heq
  · rw [heq]
    exact Message.steps_concat rfl fun _ ↦ hid
  · rw [heq] at hfresh ⊢
    exact Message.steps_concat rfl fun h ↦ hfresh h (Nat.succ_ne_self _)

/-- **One event.** Unless a list of messages replaces the old one, the messages grow in steps. -/
theorem steps_apply {k : EventKind} (hk : ∀ messages, k ≠ .messagesSnapshot messages) :
    Steps (s.DrawsFresh k) s.messages (s.apply k).session.messages := by
  cases k with
  | textMessageStart id role =>
    change Steps _ _ (s.startText id).session.messages
    rw [(s.startText_eq id).2]
    exact Message.steps_ensured s.messages id
  | textMessageContent id delta =>
    change Steps _ _ ((Message.appendTo? s.messages id delta).getD s.messages)
    cases happend : Message.appendTo? s.messages id delta with
    | none => exact .refl
    | some messages => exact Message.steps_of_appendTo? happend
  | textMessageChunk id role delta => exact s.steps_chunkText id role delta
  | thinkingTextMessageStart =>
    -- the identifier is always drawn, and nobody looks whether a message has it
    refine Message.steps_concat rfl fun hfresh ↦ hfresh ?_ .thinking rfl
    exact Nat.succ_ne_self _
  | thinkingTextMessageContent delta =>
    change Steps _ _ (s.continueThinking delta).session.messages
    by_cases hnil : s.messages = []
    · rw [continueThinking_of_nil hnil]
    · cases hthinking : s.openThinking with
      | none =>
        rw [continueThinking_of_none hnil hthinking]
        exact Message.steps_appendToLast s.messages delta
      | some id =>
        rw [continueThinking_of_some hnil hthinking]
        exact Message.steps_appendToLast s.messages delta
  | thinkingTextMessageEnd =>
    change Steps _ _ s.endThinking.session.messages
    cases hthinking : s.openThinking with
    | none =>
      rw [endThinking_of_none hthinking]
    | some id =>
      rw [endThinking_of_some hthinking]
  | toolCallStart callId name requested =>
    exact steps_startCall fun hfresh hdrawn ↦ hfresh hdrawn .message rfl
  | toolCallArgs callId delta => exact s.steps_appendArguments callId delta
  | toolCallChunk callId callName requested delta =>
    exact steps_chunkCall fun hfresh hdrawn ↦ hfresh hdrawn .message rfl
  | toolCallResult messageId callId result =>
    exact steps_resultOfCall fun hfresh hdrawn ↦ hfresh hdrawn .toolResult rfl
  | stateDelta delta =>
    change Steps _ _ (s.patchState delta).session.messages
    rw [patchState]
    split
    · exact .refl
    · exact .refl
  | messagesSnapshot messages => exact absurd rfl (hk messages)
  | runFinished threadId runId result =>
    change Steps _ _ (if result.isNull then s else { s with result := some result }).messages
    split
    · exact .refl
    · exact .refl
  | _ => exact .refl

end Session

end AgentSession
