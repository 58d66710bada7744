import AgentSession.Session.Basic
/-!
# What events do

Each kind of event does something to the session, whether or not there are subscribers. The
functions of this module say what, one for each family of kinds, and `Session.apply` puts them
together.

Streams need not be well formed. A message that is started twice is not added twice, but its text
is gathered afresh; text for a message that is not open reaches the message but no buffer, and
text for a message that does not exist reaches a buffer only; an end without a start ends nothing.
-/

namespace AgentSession

/-- Adds text to an open buffer, and gives its text afterwards. A buffer that is not open stays so
and has no text. -/
def Dict.appendText (buffers : Dict String) (key delta : String) : String × Dict String :=
  match buffers.get? key with
  | some text => (text ++ delta, buffers.insert key (text ++ delta))
  | none => ("", buffers)

/-- Closes a buffer, and gives its text, which is empty if it was not open. -/
def Dict.closeText (buffers : Dict String) (key : String) : String × Dict String :=
  ((buffers.get? key).getD "", buffers.erase key)

namespace Session

/-! ## Text messages -/

/-- A text message begins. The message is an assistant's, whatever role the event tells. -/
def startText (s : Session) (id : String) : Effect :=
  let opened := { s with textBuffers := s.textBuffers.insert id "" }
  if Message.has s.messages id then { session := opened }
  else
    let m : Message := { id, role := .assistant }
    { session := opened.addMessage m, notices := [.newMessage m] }

def continueText (s : Session) (id delta : String) : Effect :=
  let (text, textBuffers) := s.textBuffers.appendText id delta
  let messages := (Message.appendTo? s.messages id delta).getD s.messages
  { session := { s with textBuffers, messages }, outcome := .ok text }

def endText (s : Session) (id : String) : Effect :=
  let (text, textBuffers) := s.textBuffers.closeText id
  { session := { s with textBuffers }
    notices := [.messagesChanged s.messages]
    outcome := .ok text }

/-- The message that a piece without an identifier belongs to: the newest one if it is an
assistant's, or else a fresh one. -/
def chunkTarget (s : Session) (id : String) : String × Session :=
  if id = "" then
    match Message.lastIfAssistant? s.messages with
    | some last => (last.id, s)
    | none => s.drawId .message
  else (id, s)

/-- A piece of a text message, which is added if it does not exist. -/
def chunkText (s : Session) (id : String) (role : Option Role) (delta : String) : Effect :=
  let (id, s) := s.chunkTarget id
  match Message.appendTo? s.messages id delta with
  | some messages => { session := { s with messages }, notices := [.messagesChanged messages] }
  | none =>
    let m : Message := { id, role := role.getD .assistant, content := delta }
    let s := s.addMessage m
    { session := s, notices := [.newMessage m, .messagesChanged s.messages] }

/-! ## Thinking messages -/

/-- A thinking message begins, with a fresh identifier. One that is still open is given up. -/
def startThinking (s : Session) : Effect :=
  let (id, s) := s.drawId .thinking
  let kept := match s.openThinking with
    | some previous => s.textBuffers.erase previous
    | none => s.textBuffers
  let m : Message := { id, role := .assistant }
  let s := { s with openThinking := some id, textBuffers := kept.insert id "" }
  { session := s.addMessage m, notices := [.newMessage m] }

/-- A thinking message goes on. Its text reaches the newest message, whichever that is. -/
def continueThinking (s : Session) (delta : String) : Effect :=
  match s.messages with
  | [] => { session := s }
  | _ =>
    let s := { s with messages := Message.appendToLast delta s.messages }
    match s.openThinking with
    | none => { session := s }
    | some id =>
      let (text, textBuffers) := s.textBuffers.appendText id delta
      { session := { s with textBuffers }, outcome := .ok text }

def endThinking (s : Session) : Effect :=
  let notices := [Notice.messagesChanged s.messages]
  match s.openThinking with
  | none => { session := s, notices }
  | some id =>
    let (text, textBuffers) := s.textBuffers.closeText id
    { session := { s with textBuffers, openThinking := none }, notices, outcome := .ok text }

/-! ## Tool calls -/

def startCall (s : Session) (callId name : String) (parent : Option String) : Effect :=
  match s.openToolCall callId name parent with
  | ⟨s, notices, .error failure⟩ => ⟨s, notices, .error failure⟩
  | ⟨s, notices, .ok parentId⟩ =>
    { session :=
        { s with
          argumentBuffers := s.argumentBuffers.insert callId ""
          callParents := s.callParents.insert callId parentId }
      notices }

def continueCall (s : Session) (callId delta : String) : Effect :=
  let (text, argumentBuffers) := s.argumentBuffers.appendText callId delta
  let messages := (s.appendArguments? callId delta).getD s.messages
  { session := { s with argumentBuffers, messages }, outcome := .ok text }

def endCall (s : Session) (callId : String) : Effect :=
  let (text, argumentBuffers) := s.argumentBuffers.closeText callId
  { session := { s with argumentBuffers, callParents := s.callParents.erase callId }
    notices := [.messagesChanged s.messages]
    outcome := .ok text }

/-- More arguments for a tool call, if it is found. -/
def chunkArguments (s : Session) (callId delta : String) (notices : List Notice) : Effect :=
  let messages := (s.appendArguments? callId delta).getD s.messages
  { session := { s with messages }, notices := notices ++ [.messagesChanged messages] }

/-- A piece of a tool call, which is added if it is not found. -/
def chunkCall (s : Session) (callId : String) (name parent : Option String) (delta : String) :
    Effect :=
  if (s.appendArguments? callId delta).isSome then s.chunkArguments callId delta []
  else
    match s.openToolCall callId (name.getD "") parent with
    | ⟨s, notices, .error failure⟩ => ⟨s, notices, .error failure⟩
    | ⟨s, notices, .ok _⟩ => s.chunkArguments callId delta notices

/-- A tool call has a result, which is added as a message. It has the identifier asked for unless
that is taken, and otherwise a fresh one. -/
def resultOfCall (s : Session) (id : Option String) (callId result : String) : Effect :=
  let (id, s) :=
    match id.filter fun id ↦ !Message.has s.messages id with
    | some id => (id, s)
    | none => s.drawId .toolResult
  let m := Message.toolResult id callId result
  let s := s.addMessage m
  { session := s, notices := [.newMessage m, .messagesChanged s.messages] }

/-! ## The state document and the list of messages -/

/-- The state document is replaced; in the place of `null` comes the empty object. -/
def replaceState (s : Session) (snapshot : Json) : Effect :=
  let doc := if snapshot.isNull then Json.empty else snapshot
  { session := s.setState doc, notices := [.stateChanged doc] }

def patchState (s : Session) (delta : Json) : Effect :=
  match s.store.patch delta with
  | .error failure => { session := s, outcome := .error failure }
  | .ok store => { session := { s with store }, notices := [.stateChanged store.state] }

def replaceMessages (s : Session) (messages : List Message) : Effect :=
  { session := { s with messages }, notices := [.messagesChanged messages] }

/-! ## All kinds -/

/-- What an event does to a session. -/
def apply (s : Session) : EventKind → Effect
  | .textMessageStart id _ => s.startText id
  | .textMessageContent id delta => s.continueText id delta
  | .textMessageEnd id => s.endText id
  | .textMessageChunk id role delta => s.chunkText id role delta
  | .thinkingTextMessageStart => s.startThinking
  | .thinkingTextMessageContent delta => s.continueThinking delta
  | .thinkingTextMessageEnd => s.endThinking
  | .toolCallStart callId name parent => s.startCall callId name parent
  | .toolCallArgs callId delta => s.continueCall callId delta
  | .toolCallEnd callId => s.endCall callId
  | .toolCallChunk callId name parent delta => s.chunkCall callId name parent delta
  | .toolCallResult id callId result => s.resultOfCall id callId result
  | .stateSnapshot snapshot => s.replaceState snapshot
  | .stateDelta delta => s.patchState delta
  | .messagesSnapshot messages => s.replaceMessages messages
  | .runFinished _ _ result =>
    { session := if result.isNull then s else { s with result := some result } }
  | .runStarted _ _ | .runError _ _ | .stepStarted _ | .stepFinished _ | .thinkingStart _
  | .thinkingEnd | .raw _ _ | .custom _ _ => { session := s }

end Session

end AgentSession
