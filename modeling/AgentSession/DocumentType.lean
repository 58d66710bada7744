import AgentSession.Config.Basic
import AgentSession.Request.Wire
/-!
# Types of documents

The types of documents that are read strictly, by name. Reading a text as a document of some type
and writing what was read gives the normal form of the text: every field is there, or left out if
it is absent, and what nobody knows is gone.
-/

namespace AgentSession

/-- A type of documents. -/
structure DocumentType where
  name : String
  /-- The document that a written document normally is. -/
  normal : Nat → Written → Option Json

namespace DocumentType

/-- The type of documents that are read and written in some way. -/
def of {α : Type} (name : String) (read : Reader α) (write : α → Json) : DocumentType :=
  ⟨name, fun depth w ↦ (read depth w).map write⟩

def all : List DocumentType :=
  [.of "value" Reader.document id, .of "role" Role.reader Role.toJson,
    .of "function_call" FunctionCall.reader FunctionCall.toJson,
    .of "tool_call" ToolCall.reader ToolCall.toJson, .of "message" Message.reader Message.toJson,
    .of "tool" Tool.reader Tool.toJson, .of "context" ContextItem.reader ContextItem.toJson,
    .of "input" RunInput.reader RunInput.toJson, .of "result" RunResult.reader RunResult.toJson,
    .of "history" HistorySettings.reader HistorySettings.toJson,
    .of "policy" MalformedPolicy.reader MalformedPolicy.toJson]

def ofName? (name : String) : Option DocumentType := all.find? fun t ↦ t.name == name

/-- The normal form of a text, if it is a document of the type. -/
def normalize (t : DocumentType) (text : List Char) : Option Json := Reader.run t.normal text

end DocumentType

end AgentSession
