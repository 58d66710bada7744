import AgentSession.Session.Hooks
import AgentSession.Slot
/-!
# A subscriber that records

A recorder keeps a list of what it is asked and told, under the names by which subscribers know
these occasions. Besides it may be set to answer: to ask to stop or to fail when it is asked about
an event in general, and to ask for mutations when it is asked about what an event says.
-/

namespace AgentSession

/-- The occasions on which a subscriber is called. -/
inductive Hook where
  | event (type : EventType)
  | kind (type : EventType)
  | newMessage
  | newToolCall
  | messagesChanged
  | stateChanged
  | runInitialized
  | runFailed
  | runFinalized
deriving DecidableEq, Repr

namespace Hook

def ofNotice : Notice → Hook
  | .newMessage _ => .newMessage
  | .newToolCall _ => .newToolCall
  | .messagesChanged _ => .messagesChanged
  | .stateChanged _ => .stateChanged
  | .runInitialized _ => .runInitialized
  | .runFailed _ => .runFailed
  | .runFinalized _ => .runFinalized

def kindName : EventType → String
  | .textMessageStart => "on_text_message_start"
  | .textMessageContent => "on_text_message_content"
  | .textMessageEnd => "on_text_message_end"
  | .textMessageChunk => "on_text_message_chunk"
  | .thinkingTextMessageStart => "on_thinking_text_message_start"
  | .thinkingTextMessageContent => "on_thinking_text_message_content"
  | .thinkingTextMessageEnd => "on_thinking_text_message_end"
  | .toolCallStart => "on_tool_call_start"
  | .toolCallArgs => "on_tool_call_args"
  | .toolCallEnd => "on_tool_call_end"
  | .toolCallChunk => "on_tool_call_chunk"
  | .toolCallResult => "on_tool_call_result"
  | .thinkingStart => "on_thinking_start"
  | .thinkingEnd => "on_thinking_end"
  | .stateSnapshot => "on_state_snapshot"
  | .stateDelta => "on_state_delta"
  | .messagesSnapshot => "on_messages_snapshot"
  | .runStarted => "on_run_started"
  | .runFinished => "on_run_finished"
  | .runError => "on_run_error"
  | .stepStarted => "on_step_started"
  | .stepFinished => "on_step_finished"
  | .raw => "on_raw_event"
  | .custom => "on_custom_event"

def name : Hook → String
  | .event _ => "on_event"
  | .kind type => kindName type
  | .newMessage => "on_new_message"
  | .newToolCall => "on_new_tool_call"
  | .messagesChanged => "on_messages_changed"
  | .stateChanged => "on_state_changed"
  | .runInitialized => "on_run_initialized"
  | .runFailed => "on_run_failed"
  | .runFinalized => "on_run_finalized"

def type? : Hook → Option EventType
  | .event type | .kind type => some type
  | .newMessage | .newToolCall | .messagesChanged | .stateChanged | .runInitialized | .runFailed
  | .runFinalized => none

end Hook

structure HookCall where
  hook : Hook
  text : Option String := none
deriving DecidableEq, Repr

/-- What a recorder answers. -/
structure Recorder where
  /-- What it asks for when it is asked about what an event of a type says. -/
  answer : EventType → Mutation := fun _ ↦ .nothing
  stopOn : List EventType := []
  failOn : List EventType := []

namespace Recorder

variable {σ : Type}

def verdict (r : Recorder) (type : EventType) : Except Failure Mutation :=
  if r.failOn.contains type then .error (.execution s!"subscriber failed on {type.name}")
  else if r.stopOn.contains type then .ok { stop := true }
  else .ok .nothing

/-- Records that the hook for events of a type was called, and gives the answer set for it. -/
def hear (r : Recorder) (calls : Slot σ (List HookCall)) (type : EventType)
    (text : Option String) : Reaction σ :=
  fun _ memory ↦ (.ok (r.answer type), calls.push { hook := .kind type, text } memory)

/-- The hooks of a recorder, each of which records itself. -/
def hooks (r : Recorder) (calls : Slot σ (List HookCall)) : Hooks σ where
  event e _ memory := (r.verdict e.type, calls.push { hook := .event e.type } memory)
  textMessageStart _ _ := r.hear calls .textMessageStart none
  textMessageContent _ _ text := r.hear calls .textMessageContent (some text)
  textMessageEnd _ text := r.hear calls .textMessageEnd (some text)
  textMessageChunk _ _ _ := r.hear calls .textMessageChunk none
  thinkingTextMessageStart := r.hear calls .thinkingTextMessageStart none
  thinkingTextMessageContent _ text := r.hear calls .thinkingTextMessageContent (some text)
  thinkingTextMessageEnd text := r.hear calls .thinkingTextMessageEnd (some text)
  toolCallStart _ _ _ := r.hear calls .toolCallStart none
  toolCallArgs _ _ text := r.hear calls .toolCallArgs (some text)
  toolCallEnd _ text := r.hear calls .toolCallEnd (some text)
  toolCallChunk _ _ _ _ := r.hear calls .toolCallChunk none
  toolCallResult _ _ _ := r.hear calls .toolCallResult none
  thinkingStart _ := r.hear calls .thinkingStart none
  thinkingEnd := r.hear calls .thinkingEnd none
  stateSnapshot _ := r.hear calls .stateSnapshot none
  stateDelta _ := r.hear calls .stateDelta none
  messagesSnapshot _ := r.hear calls .messagesSnapshot none
  runStarted _ _ := r.hear calls .runStarted none
  runFinished _ _ _ := r.hear calls .runFinished none
  runError _ _ := r.hear calls .runError none
  stepStarted _ := r.hear calls .stepStarted none
  stepFinished _ := r.hear calls .stepFinished none
  raw _ _ := r.hear calls .raw none
  custom _ _ := r.hear calls .custom none
  newMessage _ memory := calls.push { hook := .newMessage } memory
  newToolCall _ memory := calls.push { hook := .newToolCall } memory
  messagesChanged _ memory := calls.push { hook := .messagesChanged } memory
  stateChanged _ memory := calls.push { hook := .stateChanged } memory
  runInitialized _ memory := calls.push { hook := .runInitialized } memory
  runFailed _ memory := calls.push { hook := .runFailed } memory
  runFinalized _ memory := calls.push { hook := .runFinalized } memory

def subscriber (r : Recorder) (calls : Slot σ (List HookCall)) : Subscriber σ :=
  (r.hooks calls).subscriber

end Recorder

end AgentSession
