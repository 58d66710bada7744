import AgentSession.Event.Basic
import AgentSession.Failure
import AgentSession.Json.Written
import AgentSession.Message.Wire
/-!
# Events as documents

An event is written as an object with its type, its time and the fields of its kind. Reading is
lenient about everything but the type: a document must be an object and have a text under `type`;
a type that nobody knows makes an event that passes the document through as text; and a field that
is missing or has the wrong type is empty. Some fields are known by several names, of which the
first that holds a value of the right type counts.

A time is taken from the document if it is an integer between `Event.leastTime` and
`Event.greatestTime`; otherwise the event has the time at which it is read.
-/

namespace AgentSession

namespace EventKind

/-! ## Names of fields -/

def messageIdNames : List String := ["messageId", "message_id"]

def toolCallIdNames : List String := ["toolCallId", "tool_call_id"]

def toolCallNameNames : List String := ["toolCallName", "tool_call_name"]

def parentMessageIdNames : List String := ["parentMessageId", "parent_message_id"]

def threadIdNames : List String := ["threadId", "thread_id"]

def runIdNames : List String := ["runId", "run_id"]

def stepIdNames : List String := ["stepId", "step_id", "stepName"]

def deltaNames : List String := ["delta", "content"]

def argumentsNames : List String := ["delta", "arguments"]

def toolResultNames : List String := ["result", "content"]

def patchNames : List String := ["delta", "patch"]

def errorMessageNames : List String := ["message", "error"]

def customNameNames : List String := ["eventType", "event_type", "name"]

def customDataNames : List String := ["data", "value"]

/-! ## Reading -/

/-- The role under `role`, if it names one. -/
def roleField? (doc : Json) : Option Role := (doc.textField? ["role"]).bind Role.ofName?

/-- The text of an event that is passed through: the text under `data`, or else the document under
`event`, as text. -/
def rawData (doc : Json) : String :=
  match doc.member? "data" with
  | some (.str data) => data
  | _ => ((doc.member? "event").map Json.compact).getD ""

/-- What a document with a known type says. -/
def read (freshId : Nat → String) (type : EventType) (doc : Json) : EventKind :=
  match type with
  | .textMessageStart =>
    .textMessageStart (doc.textField messageIdNames) ((roleField? doc).getD .assistant)
  | .textMessageContent =>
    .textMessageContent (doc.textField messageIdNames) (doc.textField deltaNames)
  | .textMessageEnd => .textMessageEnd (doc.textField messageIdNames)
  | .textMessageChunk =>
    .textMessageChunk (doc.textField messageIdNames) (roleField? doc) (doc.textField deltaNames)
  | .thinkingTextMessageStart => .thinkingTextMessageStart
  | .thinkingTextMessageContent => .thinkingTextMessageContent (doc.textField deltaNames)
  | .thinkingTextMessageEnd => .thinkingTextMessageEnd
  | .toolCallStart =>
    .toolCallStart (doc.textField toolCallIdNames) (doc.textField toolCallNameNames)
      (doc.nonemptyField? parentMessageIdNames)
  | .toolCallArgs => .toolCallArgs (doc.textField toolCallIdNames) (doc.textField deltaNames)
  | .toolCallEnd => .toolCallEnd (doc.textField toolCallIdNames)
  | .toolCallChunk =>
    .toolCallChunk (doc.textField toolCallIdNames) (doc.textField? toolCallNameNames)
      (doc.nonemptyField? parentMessageIdNames) (doc.textField argumentsNames)
  | .toolCallResult =>
    .toolCallResult (doc.nonemptyField? messageIdNames) (doc.textField toolCallIdNames)
      (doc.textField toolResultNames)
  | .thinkingStart => .thinkingStart (doc.textField? ["title"])
  | .thinkingEnd => .thinkingEnd
  | .stateSnapshot => .stateSnapshot (doc.valueField ["snapshot"])
  | .stateDelta => .stateDelta (doc.valueField patchNames)
  | .messagesSnapshot =>
    .messagesSnapshot (Message.listOfJson freshId (doc.itemsField ["messages"]))
  | .runStarted => .runStarted (doc.textField threadIdNames) (doc.textField runIdNames)
  | .runFinished =>
    .runFinished (doc.textField threadIdNames) (doc.textField runIdNames)
      (doc.valueField ["result"])
  | .runError => .runError (doc.textField errorMessageNames) (doc.textField? ["code"])
  | .stepStarted => .stepStarted (doc.textField stepIdNames)
  | .stepFinished => .stepFinished (doc.textField stepIdNames)
  | .raw => .raw (rawData doc) (doc.textField? ["source"])
  | .custom => .custom (doc.textField customNameNames) (doc.valueField customDataNames)

/-! ## Writing -/

def fields : EventKind → List (String × Json)
  | .textMessageStart messageId role => [("messageId", .str messageId), ("role", role.toJson)]
  | .textMessageContent messageId delta =>
    [("messageId", .str messageId), ("delta", .str delta)]
  | .textMessageEnd messageId => [("messageId", .str messageId)]
  | .textMessageChunk messageId role delta =>
    [("messageId", .str messageId), ("delta", .str delta)] ++
      Json.optionalMember "role" (role.map Role.name)
  | .thinkingTextMessageStart | .thinkingTextMessageEnd | .thinkingEnd => []
  | .thinkingTextMessageContent delta => [("delta", .str delta)]
  | .toolCallStart toolCallId toolCallName parentMessageId =>
    [("toolCallId", .str toolCallId), ("toolCallName", .str toolCallName)] ++
      Json.optionalMember "parentMessageId" parentMessageId
  | .toolCallArgs toolCallId delta => [("toolCallId", .str toolCallId), ("delta", .str delta)]
  | .toolCallEnd toolCallId => [("toolCallId", .str toolCallId)]
  | .toolCallChunk toolCallId toolCallName parentMessageId delta =>
    [("toolCallId", .str toolCallId), ("delta", .str delta)] ++
      Json.optionalMember "toolCallName" toolCallName ++
      Json.optionalMember "parentMessageId" parentMessageId
  | .toolCallResult messageId toolCallId result =>
    [("toolCallId", .str toolCallId), ("result", .str result)] ++
      Json.optionalMember "messageId" messageId
  | .thinkingStart title => Json.optionalMember "title" title
  | .stateSnapshot snapshot => [("snapshot", snapshot)]
  | .stateDelta delta => [("delta", delta)]
  | .messagesSnapshot messages => [("messages", Message.listToJson messages)]
  | .runStarted threadId runId => [("threadId", .str threadId), ("runId", .str runId)]
  | .runFinished threadId runId result =>
    [("threadId", .str threadId), ("runId", .str runId), ("result", result)]
  | .runError message code => ("message", .str message) :: Json.optionalMember "code" code
  | .stepStarted stepId | .stepFinished stepId => [("stepId", .str stepId)]
  | .raw data source => ("data", .str data) :: Json.optionalMember "source" source
  | .custom name data => [("eventType", .str name), ("data", data)]

end EventKind

namespace Event

/-- The earliest time that a document may tell. -/
def leastTime : Int := -8334601228800000

/-- The latest time that a document may tell. -/
def greatestTime : Int := 8210266876799999

def timeField? (doc : Json) : Option Int :=
  ((doc.member? "timestamp").bind Json.int64?).filter fun t ↦ leastTime ≤ t && t ≤ greatestTime

/-- What a document with a given type name says. -/
def readKind (m : Moment) (typeName : String) (doc : Json) : EventKind :=
  match EventType.ofName? typeName with
  | some type => .read m.freshId type doc
  | none => .raw doc.compact none

def ofJson (m : Moment) (doc : Json) : Except ProtocolError Event :=
  match doc with
  | .obj _ =>
    match doc.textField? ["type"] with
    | some typeName =>
      .ok
        { kind := readKind m typeName doc
          timestamp := (timeField? doc).getD m.now
          source := some doc }
    | none => .error .missingType
  | _ => .error (.invalidDocument "expected a JSON object")

def notJson : String := "malformed text"

def parse (m : Moment) (text : String) : Except ProtocolError Event :=
  match Json.parse text with
  | some doc => ofJson m doc
  | none => .error (.json notJson)

def toJson (e : Event) : Json :=
  .object (("type", .str e.type.name) :: ("timestamp", .int e.timestamp) :: e.kind.fields)

end Event

end AgentSession
