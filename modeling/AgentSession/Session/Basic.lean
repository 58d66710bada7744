import AgentSession.Identifier
import AgentSession.Message.Locate
import AgentSession.Session.Subscriber
import AgentSession.StateStore
/-!
# Sessions

A session holds the messages and the state document of a conversation, and what is open in the
stream of events: the text of each message and the arguments of each tool call that have been
started and not ended, the message that each open tool call belongs to, and the thinking message
that is open.

## Effects

What an event does to a session is an `Effect`: the session afterwards, the notices for the
subscribers in their order, and either the text that the kind-specific answers are given with or a
failure. A failing event may have changed the session, which is why the session stands beside the
failure.
-/

namespace AgentSession

structure Session where
  /-- The messages, oldest first. -/
  messages : List Message := []
  store : StateStore := {}
  /-- The last result that a run reported, unless it was `null`. -/
  result : Option Json := none
  input : Option RunInput := none
  /-- The text gathered for each open message, thinking messages included. -/
  textBuffers : Dict String := []
  argumentBuffers : Dict String := []
  /-- The message that each open tool call belongs to. -/
  callParents : Dict String := []
  /-- The identifier of the open thinking message. -/
  openThinking : Option String := none
  ids : IdSource := .sequential

/-- What an event does to a session. -/
structure Effect where
  session : Session
  notices : List Notice := []
  /-- The text gathered so far, or the failure. -/
  outcome : Except Failure String := .ok ""

namespace Session

def state (s : Session) : Json := s.store.state

def view (s : Session) : View := ⟨s.messages, s.state, s.input⟩

def hasOpenBuffers (s : Session) : Bool := !s.textBuffers.isEmpty || !s.argumentBuffers.isEmpty

def clearBuffers (s : Session) : Session :=
  { s with textBuffers := [], argumentBuffers := [], callParents := [], openThinking := none }

def setState (s : Session) (doc : Json) : Session := { s with store := s.store.set doc }

def addMessage (s : Session) (m : Message) : Session := { s with messages := s.messages ++ [m] }

def drawId (s : Session) (kind : IdKind) : String × Session :=
  let (id, ids) := s.ids.next kind
  (id, { s with ids })

/-! ## Tool calls -/

/-- The messages after more arguments for a tool call. If the call is open, it is looked for in the
message that it belongs to, and otherwise in the newest message that holds it. -/
def appendArguments? (s : Session) (callId delta : String) : Option (List Message) :=
  match s.callParents.get? callId with
  | some parentId => Message.modify? (Message.appendArguments? callId delta) parentId s.messages
  | none => Message.modifyNewest? (Message.appendArguments? callId delta) s.messages

/-- The message that a new tool call belongs to: the one asked for, or else the newest one if it is
an assistant's, or else a fresh one. If there is no such message, it is added. -/
def resolveParent (s : Session) (requested : Option String) : String × Session × List Notice :=
  let added (s : Session) (id : String) : String × Session × List Notice :=
    let m : Message := { id, role := .assistant }
    (id, s.addMessage m, [.newMessage m])
  match requested with
  | some id => if Message.has s.messages id then (id, s, []) else added s id
  | none =>
    match Message.lastIfAssistant? s.messages with
    | some last => (last.id, s, [])
    | none =>
      let (id, s) := s.drawId .message
      added s id

/-- Adds a tool call without arguments to the message that it belongs to. The text of the outcome
is the identifier of that message. A message holds at most one call with an identifier. -/
def openToolCall (s : Session) (callId name : String) (requested : Option String) : Effect :=
  let (parentId, s, notices) := s.resolveParent requested
  match Message.find? s.messages parentId with
  | none => ⟨s, notices, .error (.state s!"parent message {parentId} vanished")⟩
  | some parent =>
    if (parent.findToolCall? callId).isSome then
      ⟨s, notices, .error (.validation s!"duplicate tool call {callId} in message {parentId}")⟩
    else
      let call := ToolCall.new callId name
      let messages := (Message.modify? (fun m ↦ some (m.addToolCall call)) parentId s.messages).getD
        s.messages
      ⟨{ s with messages }, notices ++ [.newToolCall call], .ok parentId⟩

end Session

end AgentSession
