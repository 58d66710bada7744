import AgentSession.Event.EventType
import AgentSession.Json.Basic
/-!
# Sample documents of events

Documents of events as an agent would send them, without a time. A message or a tool call is sent
as a sequence of documents: one that begins it, one for each piece, and one that ends it.
-/

namespace AgentSession.Sample

def event (type : EventType) (members : List (String × Json)) : Json :=
  .object (("type", .str type.name) :: members)

/-! ## Text messages -/

def textMessageStart (messageId : String) : Json :=
  event .textMessageStart [("messageId", .str messageId), ("role", .str "assistant")]

def textMessageContent (messageId delta : String) : Json :=
  event .textMessageContent [("messageId", .str messageId), ("delta", .str delta)]

def textMessageEnd (messageId : String) : Json :=
  event .textMessageEnd [("messageId", .str messageId)]

def textMessageChunk (messageId delta : String) : Json :=
  event .textMessageChunk [("messageId", .str messageId), ("delta", .str delta)]

def textMessage (messageId : String) (deltas : List String) : List Json :=
  textMessageStart messageId :: deltas.map (textMessageContent messageId) ++
    [textMessageEnd messageId]

def thinkingStart : Json := event .thinkingTextMessageStart []

def thinkingContent (delta : String) : Json :=
  event .thinkingTextMessageContent [("delta", .str delta)]

def thinkingEnd : Json := event .thinkingTextMessageEnd []

/-! ## Tool calls -/

def toolCallStart (callId name : String) (parent : Option String) : Json :=
  let parentMember := match parent with
    | some id => [("parentMessageId", Json.str id)]
    | none => []
  event .toolCallStart
    ([("toolCallId", .str callId), ("toolCallName", .str name)] ++ parentMember)

def toolCallArgs (callId delta : String) : Json :=
  event .toolCallArgs [("toolCallId", .str callId), ("delta", .str delta)]

def toolCallEnd (callId : String) : Json := event .toolCallEnd [("toolCallId", .str callId)]

def toolCall (callId name : String) (parent : Option String) (args : List String) : List Json :=
  toolCallStart callId name parent :: args.map (toolCallArgs callId) ++ [toolCallEnd callId]

def toolCallResult (messageId callId content : String) : Json :=
  event .toolCallResult
    [("messageId", .str messageId), ("toolCallId", .str callId), ("content", .str content)]

/-! ## The session -/

def stateSnapshot (snapshot : Json) : Json := event .stateSnapshot [("snapshot", snapshot)]

def stateDelta (patch : Json) : Json := event .stateDelta [("delta", patch)]

def messagesSnapshot (messages : Json) : Json := event .messagesSnapshot [("messages", messages)]

/-! ## Runs and steps -/

def runStarted (threadId runId : String) : Json :=
  event .runStarted [("threadId", .str threadId), ("runId", .str runId)]

def runFinished (threadId runId : String) (result : Json) : Json :=
  event .runFinished [("threadId", .str threadId), ("runId", .str runId), ("result", result)]

def runError (message : String) : Json := event .runError [("message", .str message)]

def stepStarted (stepId : String) : Json := event .stepStarted [("stepId", .str stepId)]

def stepFinished (stepId : String) : Json := event .stepFinished [("stepId", .str stepId)]

def custom (name : String) (data : Json) : Json :=
  event .custom [("eventType", .str name), ("data", data)]

/-! ## Samples by name -/

/-- The text that an argument is, or the empty text. -/
def text (args : List Json) (i : Nat) : String := ((args[i]?).bind Json.text?).getD ""

/-- The texts that an argument holds. -/
def texts (args : List Json) (i : Nat) : List String :=
  (((args[i]?).bind Json.items?).getD []).map fun item ↦ item.text?.getD ""

/-- The documents with a name, made from arguments. A missing argument counts as `null`. -/
def named (name : String) (args : List Json) : List Json :=
  let s := text args
  let doc (i : Nat) : Json := (args[i]?).getD .null
  let parent (i : Nat) : Option String := (args[i]?).bind Json.text?
  match name with
  | "text_message_start" => [textMessageStart (s 0)]
  | "text_message_content" => [textMessageContent (s 0) (s 1)]
  | "text_message_end" => [textMessageEnd (s 0)]
  | "text_message_chunk" => [textMessageChunk (s 0) (s 1)]
  | "text_message" => textMessage (s 0) (texts args 1)
  | "thinking_text_message_start" => [thinkingStart]
  | "thinking_text_message_content" => [thinkingContent (s 0)]
  | "thinking_text_message_end" => [thinkingEnd]
  | "tool_call_start" => [toolCallStart (s 0) (s 1) (parent 2)]
  | "tool_call_args" => [toolCallArgs (s 0) (s 1)]
  | "tool_call_end" => [toolCallEnd (s 0)]
  | "tool_call" => toolCall (s 0) (s 1) (parent 2) (texts args 3)
  | "tool_call_result" => [toolCallResult (s 0) (s 1) (s 2)]
  | "state_snapshot" => [stateSnapshot (doc 0)]
  | "state_delta" => [stateDelta (doc 0)]
  | "messages_snapshot" => [messagesSnapshot (doc 0)]
  | "run_started" => [runStarted (s 0) (s 1)]
  | "run_finished" => [runFinished (s 0) (s 1) (doc 2)]
  | "run_error" => [runError (s 0)]
  | "step_started" => [stepStarted (s 0)]
  | "step_finished" => [stepFinished (s 0)]
  | "custom" => [custom (s 0) (doc 1)]
  | _ => []

end AgentSession.Sample
