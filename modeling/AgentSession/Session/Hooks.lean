import AgentSession.Session.Subscriber
/-!
# Hooks

A subscriber is written as hooks. There is one for events in general, one for each kind of event,
which is given what an event of that kind says, and one for each thing that may happen to the
session. The hooks for the middle and the end of a stream are also given the text gathered so far.
A hook that is left out asks for nothing.

`Hooks.dispatch` calls the hook of an event's own kind.
-/

namespace AgentSession

variable {σ : Type}

/-- Whether the hook for events of a type is given the text gathered so far. -/
def EventType.gathersText : EventType → Bool
  | .textMessageContent | .textMessageEnd | .thinkingTextMessageContent | .thinkingTextMessageEnd
  | .toolCallArgs | .toolCallEnd => true
  | _ => false

/-- What a hook does, once it knows what it is called for. -/
abbrev Reaction (σ : Type) := View → σ → Answer σ

/-- Asks for nothing. -/
def Reaction.silent : Reaction σ := fun _ memory ↦ (.ok .nothing, memory)

/-- The hooks of a subscriber whose memory is part of `σ`. Where a hook is given the text gathered
so far, it comes last. -/
structure Hooks (σ : Type) where
  event : Event → Reaction σ := fun _ ↦ .silent
  textMessageStart : String → Role → Reaction σ := fun _ _ ↦ .silent
  textMessageContent : String → String → String → Reaction σ := fun _ _ _ ↦ .silent
  textMessageEnd : String → String → Reaction σ := fun _ _ ↦ .silent
  textMessageChunk : String → Option Role → String → Reaction σ := fun _ _ _ ↦ .silent
  thinkingTextMessageStart : Reaction σ := .silent
  thinkingTextMessageContent : String → String → Reaction σ := fun _ _ ↦ .silent
  thinkingTextMessageEnd : String → Reaction σ := fun _ ↦ .silent
  toolCallStart : String → String → Option String → Reaction σ := fun _ _ _ ↦ .silent
  toolCallArgs : String → String → String → Reaction σ := fun _ _ _ ↦ .silent
  toolCallEnd : String → String → Reaction σ := fun _ _ ↦ .silent
  toolCallChunk : String → Option String → Option String → String → Reaction σ :=
    fun _ _ _ _ ↦ .silent
  toolCallResult : Option String → String → String → Reaction σ := fun _ _ _ ↦ .silent
  thinkingStart : Option String → Reaction σ := fun _ ↦ .silent
  thinkingEnd : Reaction σ := .silent
  stateSnapshot : Json → Reaction σ := fun _ ↦ .silent
  stateDelta : Json → Reaction σ := fun _ ↦ .silent
  messagesSnapshot : List Message → Reaction σ := fun _ ↦ .silent
  runStarted : String → String → Reaction σ := fun _ _ ↦ .silent
  runFinished : String → String → Json → Reaction σ := fun _ _ _ ↦ .silent
  runError : String → Option String → Reaction σ := fun _ _ ↦ .silent
  stepStarted : String → Reaction σ := fun _ ↦ .silent
  stepFinished : String → Reaction σ := fun _ ↦ .silent
  raw : String → Option String → Reaction σ := fun _ _ ↦ .silent
  custom : String → Json → Reaction σ := fun _ _ ↦ .silent
  newMessage : Message → σ → σ := fun _ memory ↦ memory
  newToolCall : ToolCall → σ → σ := fun _ memory ↦ memory
  messagesChanged : List Message → σ → σ := fun _ memory ↦ memory
  stateChanged : Json → σ → σ := fun _ memory ↦ memory
  runInitialized : RunInput → σ → σ := fun _ memory ↦ memory
  runFailed : Failure → σ → σ := fun _ memory ↦ memory
  runFinalized : RunResult → σ → σ := fun _ memory ↦ memory

namespace Hooks

/-- Calls the hook of the kind that an event is of. -/
def dispatch (h : Hooks σ) (kind : EventKind) (text : String) : Reaction σ :=
  match kind with
  | .textMessageStart id role => h.textMessageStart id role
  | .textMessageContent id delta => h.textMessageContent id delta text
  | .textMessageEnd id => h.textMessageEnd id text
  | .textMessageChunk id role delta => h.textMessageChunk id role delta
  | .thinkingTextMessageStart => h.thinkingTextMessageStart
  | .thinkingTextMessageContent delta => h.thinkingTextMessageContent delta text
  | .thinkingTextMessageEnd => h.thinkingTextMessageEnd text
  | .toolCallStart id name parent => h.toolCallStart id name parent
  | .toolCallArgs id delta => h.toolCallArgs id delta text
  | .toolCallEnd id => h.toolCallEnd id text
  | .toolCallChunk id name parent delta => h.toolCallChunk id name parent delta
  | .toolCallResult message id result => h.toolCallResult message id result
  | .thinkingStart title => h.thinkingStart title
  | .thinkingEnd => h.thinkingEnd
  | .stateSnapshot doc => h.stateSnapshot doc
  | .stateDelta delta => h.stateDelta delta
  | .messagesSnapshot messages => h.messagesSnapshot messages
  | .runStarted thread run => h.runStarted thread run
  | .runFinished thread run result => h.runFinished thread run result
  | .runError message code => h.runError message code
  | .stepStarted step => h.stepStarted step
  | .stepFinished step => h.stepFinished step
  | .raw data source => h.raw data source
  | .custom name data => h.custom name data

/-- Calls the hook for what has happened. -/
def notify (h : Hooks σ) : Notice → σ → σ
  | .newMessage message => h.newMessage message
  | .newToolCall call => h.newToolCall call
  | .messagesChanged messages => h.messagesChanged messages
  | .stateChanged state => h.stateChanged state
  | .runInitialized input => h.runInitialized input
  | .runFailed failure => h.runFailed failure
  | .runFinalized result => h.runFinalized result

/-- The subscriber that is made of some hooks. -/
def subscriber (h : Hooks σ) : Subscriber σ where
  onEvent := h.event
  onKind := h.dispatch
  notify := h.notify

end Hooks

end AgentSession
