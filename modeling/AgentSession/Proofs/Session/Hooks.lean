import AgentSession.Session.Recorder
/-!
# Which hook is called

An event calls the hook of its own kind and no other. A recorder makes this visible, since each of
its hooks records itself: what is recorded is one call, under the type of the event, and with the
text gathered so far for the six types that have one (`Recorder.dispatch_hooks`).

Hooks for the other types cannot depend on that text, as they are not given it. Nothing else
distinguishes subscribers made of hooks from arbitrary ones (`Subscriber.exists_hooks_iff`), so what
holds of every subscriber holds of every choice of hooks, and what is shown with a subscriber that
keeps to the six types can be seen with hooks.
-/

namespace AgentSession

variable {σ : Type}

namespace Hooks

/-- The hooks that ask a subscriber, with no text where they are given none. -/
def ofSubscriber (b : Subscriber σ) : Hooks σ where
  event := b.onEvent
  textMessageStart id role := b.onKind (.textMessageStart id role) ""
  textMessageContent id delta text := b.onKind (.textMessageContent id delta) text
  textMessageEnd id text := b.onKind (.textMessageEnd id) text
  textMessageChunk id role delta := b.onKind (.textMessageChunk id role delta) ""
  thinkingTextMessageStart := b.onKind .thinkingTextMessageStart ""
  thinkingTextMessageContent delta text := b.onKind (.thinkingTextMessageContent delta) text
  thinkingTextMessageEnd text := b.onKind .thinkingTextMessageEnd text
  toolCallStart id name parent := b.onKind (.toolCallStart id name parent) ""
  toolCallArgs id delta text := b.onKind (.toolCallArgs id delta) text
  toolCallEnd id text := b.onKind (.toolCallEnd id) text
  toolCallChunk id name parent delta := b.onKind (.toolCallChunk id name parent delta) ""
  toolCallResult message id result := b.onKind (.toolCallResult message id result) ""
  thinkingStart title := b.onKind (.thinkingStart title) ""
  thinkingEnd := b.onKind .thinkingEnd ""
  stateSnapshot doc := b.onKind (.stateSnapshot doc) ""
  stateDelta delta := b.onKind (.stateDelta delta) ""
  messagesSnapshot messages := b.onKind (.messagesSnapshot messages) ""
  runStarted thread run := b.onKind (.runStarted thread run) ""
  runFinished thread run result := b.onKind (.runFinished thread run result) ""
  runError message code := b.onKind (.runError message code) ""
  stepStarted step := b.onKind (.stepStarted step) ""
  stepFinished step := b.onKind (.stepFinished step) ""
  raw data source := b.onKind (.raw data source) ""
  custom name data := b.onKind (.custom name data) ""
  newMessage message := b.notify (.newMessage message)
  newToolCall call := b.notify (.newToolCall call)
  messagesChanged messages := b.notify (.messagesChanged messages)
  stateChanged state := b.notify (.stateChanged state)
  runInitialized input := b.notify (.runInitialized input)
  runFailed failure := b.notify (.runFailed failure)
  runFinalized result := b.notify (.runFinalized result)

variable (h : Hooks σ) (b : Subscriber σ) (kind : EventKind) (text : String)

/-- Hooks are told apart by the subscribers that are made of them. -/
theorem ofSubscriber_subscriber : ofSubscriber h.subscriber = h := rfl

/-- A hook passes on the text it is given. -/
theorem dispatch_ofSubscriber :
    (ofSubscriber b).dispatch kind text =
      b.onKind kind (if kind.type.gathersText then text else "") := by
  cases kind <;> rfl

theorem notify_ofSubscriber : (ofSubscriber b).notify = b.notify := by
  funext notice
  cases notice <;> rfl

/-- The text gathered so far does not reach the hooks that are not given it. -/
theorem dispatch_congr_text {text' : String} (hkind : kind.type.gathersText = false) :
    h.dispatch kind text = h.dispatch kind text' := by
  have hall (t : String) : h.dispatch kind t = h.dispatch kind "" := by
    have := dispatch_ofSubscriber h.subscriber kind t
    rwa [hkind, ofSubscriber_subscriber] at this
  rw [hall text, hall text']

end Hooks

/-- A subscriber is made of hooks if and only if it looks at the text gathered so far only for the
types of events whose hooks are given it. -/
theorem Subscriber.exists_hooks_iff (b : Subscriber σ) :
    (∃ h : Hooks σ, h.subscriber = b) ↔
      ∀ (kind : EventKind) (text text' : String), kind.type.gathersText = false →
        b.onKind kind text = b.onKind kind text' := by
  constructor
  · rintro ⟨h, rfl⟩ kind text text' hkind
    exact h.dispatch_congr_text kind text hkind
  · intro hb
    refine ⟨.ofSubscriber b, ?_⟩
    have hkind : (Hooks.ofSubscriber b).dispatch = b.onKind := by
      funext kind text
      rw [Hooks.dispatch_ofSubscriber]
      cases h : kind.type.gathersText with
      | true => rfl
      | false => exact hb kind _ _ h
    rw [Hooks.subscriber, hkind, Hooks.notify_ofSubscriber]
    rfl

/-! ## Recorded calls -/

namespace Recorder

variable (r : Recorder) (calls : Slot σ (List HookCall))

/-- **Dispatch.** An event calls exactly one of the hooks for kinds, that of its own type, and shows
it the text gathered so far if and only if the type has one. -/
theorem dispatch_hooks (kind : EventKind) (text : String) (view : View) (memory : σ) :
    (r.hooks calls).dispatch kind text view memory =
      (.ok (r.answer kind.type), calls.push
        { hook := .kind kind.type
          text := if kind.type.gathersText then some text else none } memory) := by
  cases kind <;> rfl

theorem notify_hooks (notice : Notice) (memory : σ) :
    (r.hooks calls).notify notice memory = calls.push { hook := .ofNotice notice } memory := by
  cases notice <;> rfl

end Recorder

end AgentSession
