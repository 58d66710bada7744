import AgentSession.Message.Basic
/-!
# Finding and changing messages

Messages are found by their identifier, the oldest first. A tool call is found in the newest
message that holds it. The functions that change a message give the changed list, or nothing if
there is no such message or call.
-/

namespace AgentSession.Message

/-- The oldest message with an identifier. -/
def find? (ms : List Message) (id : String) : Option Message := ms.find? fun m ↦ m.id == id

def has (ms : List Message) (id : String) : Bool := ms.any fun m ↦ m.id == id

/-- The newest message, if it is an assistant's. -/
def lastIfAssistant? (ms : List Message) : Option Message :=
  ms.getLast?.filter fun m ↦ m.role = .assistant

def lastAssistant? (ms : List Message) : Option Message :=
  ms.reverse.find? fun m ↦ m.role = .assistant

/-- The tool call with an identifier in the newest message that holds it, and that message. -/
def findOwner? (ms : List Message) (callId : String) : Option (Message × ToolCall) :=
  ms.reverse.findSome? fun m ↦ (m.findToolCall? callId).map fun call ↦ (m, call)

/-- Changes the oldest message with an identifier, if `f` changes it. -/
def modify? (f : Message → Option Message) (id : String) : List Message → Option (List Message)
  | [] => none
  | m :: ms => if m.id = id then (f m).map (· :: ms) else (modify? f id ms).map (m :: ·)

/-- Changes the newest message that `f` changes. -/
def modifyNewest? (f : Message → Option Message) : List Message → Option (List Message)
  | [] => none
  | m :: ms =>
    match modifyNewest? f ms with
    | some ms => some (m :: ms)
    | none => (f m).map (· :: ms)

def appendTo? (ms : List Message) (id delta : String) : Option (List Message) :=
  modify? (fun m ↦ some (m.append delta)) id ms

def appendToLast (delta : String) : List Message → List Message
  | [] => []
  | [m] => [m.append delta]
  | m :: ms => m :: appendToLast delta ms

/-- Adds arguments to the first of some tool calls that has an identifier. -/
def appendCall? (callId delta : String) : List ToolCall → Option (List ToolCall)
  | [] => none
  | call :: calls =>
    if call.id = callId then some (call.append delta :: calls)
    else (appendCall? callId delta calls).map (call :: ·)

def appendArguments? (callId delta : String) (m : Message) : Option Message :=
  (appendCall? callId delta m.toolCalls).map fun calls ↦ { m with toolCalls := calls }

end AgentSession.Message
