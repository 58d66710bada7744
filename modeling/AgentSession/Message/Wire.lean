import AgentSession.Json.Field
import AgentSession.Json.Reader
import AgentSession.Message.Basic
/-!
# Messages as documents

A message is written as an object in which an absent name, an absent tool call identifier and an
empty list of tool calls are left out. It is read in two ways. The strict readers take what is
written that way, and refuse a document that lacks a required field or has one of the wrong type.
The lenient ones take any document: what is missing or has the wrong type becomes empty, an unknown
role becomes the user's, and a message without an identifier gets a fresh one.
-/

namespace AgentSession

/-- A field that is written only if it has a value. -/
def Json.optionalMember (key : String) (value : Option String) : List (String × Json) :=
  match value with
  | some s => [(key, .str s)]
  | none => []

namespace FunctionCall

def toJson (f : FunctionCall) : Json :=
  .object [("name", .str f.name), ("arguments", .str f.arguments)]

def reader : Reader FunctionCall := fun depth w ↦ do
  let r ← Record.read ["name", "arguments"] depth w
  let name ← r.required "name" Reader.text
  let arguments ← r.withDefault "arguments" "" Reader.text
  return { name, arguments }

end FunctionCall

namespace ToolCall

def toJson (call : ToolCall) : Json :=
  .object [("id", .str call.id), ("type", .str call.callType), ("function", call.function.toJson)]

def reader : Reader ToolCall := fun depth w ↦ do
  let r ← Record.read ["id", "type", "function"] depth w
  let id ← r.required "id" Reader.text
  let callType ← r.withDefault "type" defaultType Reader.text
  let function ← r.required "function" FunctionCall.reader
  return { id, callType, function }

/-- Reads a tool call leniently. -/
def ofJson (doc : Json) : ToolCall :=
  let function := (doc.member? "function").getD .null
  { id := doc.textField ["id"]
    callType := (doc.textField? ["type"]).getD defaultType
    function := ⟨function.textField ["name"], function.textField ["arguments"]⟩ }

end ToolCall

namespace Role

def toJson (role : Role) : Json := .str role.name

def reader : Reader Role := Reader.choice ofName?

end Role

namespace Message

def toJson (m : Message) : Json :=
  let toolCalls := match m.toolCalls with
    | [] => []
    | calls => [("toolCalls", Json.arr (calls.map ToolCall.toJson))]
  .object <|
    [("id", .str m.id), ("role", m.role.toJson), ("content", .str m.content)] ++
      Json.optionalMember "name" m.name ++ toolCalls ++
      Json.optionalMember "toolCallId" m.toolCallId

def listToJson (ms : List Message) : Json := .arr (ms.map toJson)

def reader : Reader Message := fun depth w ↦ do
  let r ← Record.read ["id", "role", "content", "name", "toolCalls", "toolCallId"] depth w
  let id ← r.required "id" Reader.text
  let role ← r.required "role" Role.reader
  let content ← r.withDefault "content" "" Reader.text
  let name ← r.withDefault "name" none (Reader.optional Reader.text)
  let toolCalls ← r.withDefault "toolCalls" [] (Reader.list ToolCall.reader)
  let toolCallId ← r.withDefault "toolCallId" none (Reader.optional Reader.text)
  return { id, role, content, name, toolCalls, toolCallId }

/-- Reads a message leniently; `freshId` is its identifier if it has none. -/
def ofJson (freshId : String) (doc : Json) : Message :=
  { id := (doc.nonemptyField? ["id"]).getD freshId
    role := ((doc.textField? ["role"]).bind Role.ofName?).getD .user
    content := doc.textField ["content"]
    name := doc.nonemptyField? ["name"]
    toolCalls := (doc.itemsField ["toolCalls", "tool_calls"]).map ToolCall.ofJson
    toolCallId := doc.nonemptyField? ["toolCallId", "tool_call_id"] }

/-- Reads messages leniently; the message at a position that has no identifier gets the fresh one
of that position. -/
def listOfJson (freshId : Nat → String) (docs : List Json) : List Message :=
  docs.mapIdx fun i doc ↦ ofJson (freshId i) doc

end Message

end AgentSession
