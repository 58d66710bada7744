import AgentSession.Event.EventType
import AgentSession.Message.Basic
import AgentSession.Json.Basic
/-!
# Events

An event says one of twenty-four kinds of things, at a time, and may remember the document that it
was read from. Times are milliseconds since the beginning of 1970.
-/

namespace AgentSession

/-- What an event says. -/
inductive EventKind where
  | textMessageStart (messageId : String) (role : Role)
  | textMessageContent (messageId delta : String)
  | textMessageEnd (messageId : String)
  /-- A piece of a text message, which begins where it is first heard of. -/
  | textMessageChunk (messageId : String) (role : Option Role) (delta : String)
  | thinkingTextMessageStart
  | thinkingTextMessageContent (delta : String)
  | thinkingTextMessageEnd
  | toolCallStart (toolCallId toolCallName : String) (parentMessageId : Option String)
  | toolCallArgs (toolCallId delta : String)
  | toolCallEnd (toolCallId : String)
  /-- A piece of a tool call, which begins where it is first heard of. -/
  | toolCallChunk (toolCallId : String) (toolCallName parentMessageId : Option String)
      (delta : String)
  | toolCallResult (messageId : Option String) (toolCallId result : String)
  | thinkingStart (title : Option String)
  | thinkingEnd
  | stateSnapshot (snapshot : Json)
  | stateDelta (delta : Json)
  | messagesSnapshot (messages : List Message)
  | runStarted (threadId runId : String)
  | runFinished (threadId runId : String) (result : Json)
  | runError (message : String) (code : Option String)
  | stepStarted (stepId : String)
  | stepFinished (stepId : String)
  /-- Something that is passed through as text. -/
  | raw (data : String) (source : Option String)
  /-- Something that only the two ends understand. -/
  | custom (name : String) (data : Json)
deriving DecidableEq, Repr

def EventKind.type : EventKind → EventType
  | .textMessageStart _ _ => .textMessageStart
  | .textMessageContent _ _ => .textMessageContent
  | .textMessageEnd _ => .textMessageEnd
  | .textMessageChunk _ _ _ => .textMessageChunk
  | .thinkingTextMessageStart => .thinkingTextMessageStart
  | .thinkingTextMessageContent _ => .thinkingTextMessageContent
  | .thinkingTextMessageEnd => .thinkingTextMessageEnd
  | .toolCallStart _ _ _ => .toolCallStart
  | .toolCallArgs _ _ => .toolCallArgs
  | .toolCallEnd _ => .toolCallEnd
  | .toolCallChunk _ _ _ _ => .toolCallChunk
  | .toolCallResult _ _ _ => .toolCallResult
  | .thinkingStart _ => .thinkingStart
  | .thinkingEnd => .thinkingEnd
  | .stateSnapshot _ => .stateSnapshot
  | .stateDelta _ => .stateDelta
  | .messagesSnapshot _ => .messagesSnapshot
  | .runStarted _ _ => .runStarted
  | .runFinished _ _ _ => .runFinished
  | .runError _ _ => .runError
  | .stepStarted _ => .stepStarted
  | .stepFinished _ => .stepFinished
  | .raw _ _ => .raw
  | .custom _ _ => .custom

structure Event where
  kind : EventKind
  /-- When it was said or, if it does not tell, when it was read. -/
  timestamp : Int
  source : Option Json := none
deriving DecidableEq, Repr

def Event.type (e : Event) : EventType := e.kind.type

/-- What reading takes from outside at one moment: the time, and identifiers that nothing has
used. -/
structure Moment where
  now : Int
  /-- Fresh identifiers for messages. -/
  freshId : Nat → String

end AgentSession
