/-!
# Types of events

The closed list of event types, in the order of the wire protocol, with their names there.
-/

namespace AgentSession

/-- What an event is about. -/
inductive EventType where
  | textMessageStart
  | textMessageContent
  | textMessageEnd
  /-- A piece of a text message that needs no start or end. -/
  | textMessageChunk
  | thinkingTextMessageStart
  | thinkingTextMessageContent
  | thinkingTextMessageEnd
  | toolCallStart
  | toolCallArgs
  | toolCallEnd
  /-- A piece of a tool call that needs no start or end. -/
  | toolCallChunk
  | toolCallResult
  | thinkingStart
  | thinkingEnd
  | stateSnapshot
  | stateDelta
  | messagesSnapshot
  | runStarted
  | runFinished
  | runError
  | stepStarted
  | stepFinished
  /-- Something that is passed through as text. -/
  | raw
  /-- Something that only the two ends understand. -/
  | custom
deriving DecidableEq, Repr

namespace EventType

/-- The event types, in the order of the wire protocol. -/
def all : List EventType :=
  [.textMessageStart, .textMessageContent, .textMessageEnd, .textMessageChunk,
    .thinkingTextMessageStart, .thinkingTextMessageContent, .thinkingTextMessageEnd,
    .toolCallStart, .toolCallArgs, .toolCallEnd, .toolCallChunk, .toolCallResult,
    .thinkingStart, .thinkingEnd, .stateSnapshot, .stateDelta, .messagesSnapshot,
    .runStarted, .runFinished, .runError, .stepStarted, .stepFinished, .raw, .custom]

/-- The name of an event type on the wire. -/
def name : EventType → String
  | .textMessageStart => "TEXT_MESSAGE_START"
  | .textMessageContent => "TEXT_MESSAGE_CONTENT"
  | .textMessageEnd => "TEXT_MESSAGE_END"
  | .textMessageChunk => "TEXT_MESSAGE_CHUNK"
  | .thinkingTextMessageStart => "THINKING_TEXT_MESSAGE_START"
  | .thinkingTextMessageContent => "THINKING_TEXT_MESSAGE_CONTENT"
  | .thinkingTextMessageEnd => "THINKING_TEXT_MESSAGE_END"
  | .toolCallStart => "TOOL_CALL_START"
  | .toolCallArgs => "TOOL_CALL_ARGS"
  | .toolCallEnd => "TOOL_CALL_END"
  | .toolCallChunk => "TOOL_CALL_CHUNK"
  | .toolCallResult => "TOOL_CALL_RESULT"
  | .thinkingStart => "THINKING_START"
  | .thinkingEnd => "THINKING_END"
  | .stateSnapshot => "STATE_SNAPSHOT"
  | .stateDelta => "STATE_DELTA"
  | .messagesSnapshot => "MESSAGES_SNAPSHOT"
  | .runStarted => "RUN_STARTED"
  | .runFinished => "RUN_FINISHED"
  | .runError => "RUN_ERROR"
  | .stepStarted => "STEP_STARTED"
  | .stepFinished => "STEP_FINISHED"
  | .raw => "RAW"
  | .custom => "CUSTOM"

def ofName? (s : String) : Option EventType := all.find? fun t ↦ t.name == s

end EventType

end AgentSession
