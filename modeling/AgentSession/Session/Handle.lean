import AgentSession.Session.Apply
/-!
# Handling an event

An event is handled in three phases. The subscribers are asked about it in general; if one of them
fails or asks to stop, that is all. Then it does to the session what its kind does, and the
subscribers are told. Then they are asked about what it says, and their combined answer is the
result. The result is a mutation that the caller commits, with `Session.commit`.
-/

namespace AgentSession

variable {σ : Type}

/-- What handling an event leads to. -/
structure Handled (σ : Type) where
  session : Session
  memory : σ
  outcome : Except Failure Mutation

namespace Session

def handle (s : Session) (subscribers : List (Subscriber σ)) (e : Event) (memory : σ) :
    Handled σ :=
  match Subscriber.askAll (fun b ↦ b.onEvent e s.view) subscribers memory with
  | (.error failure, memory) => ⟨s, memory, .error failure⟩
  | (.ok m, memory) =>
    if m.stop then ⟨s, memory, .ok m⟩
    else
      let effect := s.apply e.kind
      let memory := Subscriber.tellAll subscribers effect.notices memory
      match effect.outcome with
      | .error failure => ⟨effect.session, memory, .error failure⟩
      | .ok text =>
        let (outcome, memory) :=
          Subscriber.askAll (fun b ↦ b.onKind e.kind text effect.session.view) subscribers memory
        ⟨effect.session, memory, outcome⟩

def mutate (s : Session) (m : Mutation) : Session :=
  let s := match m.messages with
    | some messages => { s with messages }
    | none => s
  match m.state with
  | some doc => s.setState doc
  | none => s

def mutationNotices (m : Mutation) : List Notice :=
  let messages := match m.messages with
    | some messages => [Notice.messagesChanged messages]
    | none => []
  let state := match m.state with
    | some doc => [Notice.stateChanged doc]
    | none => []
  messages ++ state

def commit (s : Session) (subscribers : List (Subscriber σ)) (m : Mutation) (memory : σ) :
    Session × σ :=
  (s.mutate m, Subscriber.tellAll subscribers (mutationNotices m) memory)

def receive (s : Session) (subscribers : List (Subscriber σ)) (m : Message) (memory : σ) :
    Session × σ :=
  (s.addMessage m, Subscriber.tell subscribers (.newMessage m) memory)

/-- The session at the beginning of a run: nothing is open, and there is no result. -/
def start (s : Session) (input : RunInput) : Session :=
  { s.clearBuffers with result := none, input := some input }

def beginRun (s : Session) (subscribers : List (Subscriber σ)) (input : RunInput) (memory : σ) :
    Session × σ :=
  (s.start input, Subscriber.tell subscribers (.runInitialized input) memory)

end Session

end AgentSession
