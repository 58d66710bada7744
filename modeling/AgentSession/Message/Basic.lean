/-!
# Messages

A conversation is a list of messages. A message of an assistant may request tool calls, whose
arguments arrive piece by piece; a message of a tool holds the result of one of them.
-/

namespace AgentSession

inductive Role where
  | user
  | assistant
  | system
  | tool
deriving DecidableEq, Repr

namespace Role

def name : Role → String
  | .user => "user"
  | .assistant => "assistant"
  | .system => "system"
  | .tool => "tool"

def ofName? : String → Option Role
  | "user" => some .user
  | "assistant" => some .assistant
  | "system" => some .system
  | "tool" => some .tool
  | _ => none

end Role

structure FunctionCall where
  name : String
  arguments : String := ""
deriving DecidableEq, Repr

structure ToolCall where
  id : String
  callType : String := "function"
  function : FunctionCall
deriving DecidableEq, Repr

namespace ToolCall

/-- The kind of call of a tool call that does not tell it. -/
def defaultType : String := "function"

def new (id name : String) : ToolCall := { id, function := { name } }

def append (call : ToolCall) (delta : String) : ToolCall :=
  { call with function := { call.function with arguments := call.function.arguments ++ delta } }

end ToolCall

/-- A message of a conversation. -/
structure Message where
  id : String
  role : Role
  content : String := ""
  name : Option String := none
  toolCalls : List ToolCall := []
  /-- The tool call whose result it holds, if it holds one. -/
  toolCallId : Option String := none
deriving DecidableEq, Repr

namespace Message

/-- A message that holds the result of a tool call. -/
def toolResult (id toolCallId content : String) : Message :=
  { id, role := .tool, content, toolCallId := some toolCallId }

/-- The first tool call with an identifier. -/
def findToolCall? (m : Message) (id : String) : Option ToolCall :=
  m.toolCalls.find? fun call ↦ call.id == id

def append (m : Message) (delta : String) : Message := { m with content := m.content ++ delta }

def addToolCall (m : Message) (call : ToolCall) : Message :=
  { m with toolCalls := m.toolCalls ++ [call] }

end Message

end AgentSession
