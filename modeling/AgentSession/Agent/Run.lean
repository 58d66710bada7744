import AgentSession.Agent.Basic
import AgentSession.Event.Wire
import AgentSession.Middleware.Chain
/-!
# Runs

A run has four parts. Preparing assembles the request from the session and what the caller asks
for, and passes it through the stages. Beginning discards what an earlier run has left open.
Feeding takes pieces of the answer: each payload that is complete is read as an event, passed
through the stages, and what they make of it is handled, strictly in the order of arrival. Then the
run is either finished, with a result that passes the stages in reverse, or it fails.

An event that cannot be handled does not end a run; a payload that is no event does so only under
the policy `MalformedPolicy.abort`, and the payloads after it are then left in the framer.
-/

namespace AgentSession

variable {σ : Type}

/-- A request that has passed the stages. -/
structure RunRequest where
  input : RunInput
  metadata : Dict String := []
deriving DecidableEq, Repr

/-- What is known of a run in progress. -/
structure Run where
  input : RunInput
  /-- The identifiers of the messages that were there when it began. -/
  initialIds : List String
  metadata : Dict String
  /-- How many events were handled without failure. -/
  eventsProcessed : Nat := 0
deriving DecidableEq, Repr

structure Running (σ : Type) where
  agent : Agent σ
  run : Run

namespace Agent

/-! ## Preparing and beginning -/

/-- Why a run that a stage halts is cancelled. -/
def haltReason : String := "request halted by middleware"

/-- The session's part in a request: the messages of the caller are added to it, and the document
of the caller replaces its state. -/
def absorb (a : Agent σ) (params : RunParams) : Agent σ :=
  let a := params.messages.foldl receive a
  match params.state with
  | some doc => a.setState doc
  | none => a

def idOr (a : Agent σ) (kind : IdKind) (given : Option String) : String × Agent σ :=
  match given with
  | some id => (id, a)
  | none =>
    let (id, session) := a.session.drawId kind
    (id, { a with session })

def assemble (a : Agent σ) (params : RunParams) : RunInput × Agent σ :=
  let (threadId, a) := a.idOr .thread params.threadId
  let (runId, a) := a.idOr .run params.runId
  ({ threadId, runId, state := a.session.state, messages := a.session.messages,
     tools := params.tools, context := params.context,
     forwardedProps := params.forwardedProps.getD .empty }, a)

def prepare (a : Agent σ) (params : RunParams) : Except Failure RunRequest × Agent σ :=
  let (input, a) := (a.absorb params).assemble params
  let (input, scene) := Chain.request a.stages.values input (a.scene none [])
  let a := a.resume scene
  if scene.context.proceed then (.ok ⟨input, scene.context.metadata⟩, a)
  else (.error (.cancelled haltReason), a)

def begin (a : Agent σ) (request : RunRequest) : Running σ :=
  let (session, memory) := a.session.beginRun a.subscribers.values request.input a.memory
  { agent := { a with session, memory, framer := {} }
    run :=
      { input := request.input
        initialIds := a.session.messages.map Message.id
        metadata := request.metadata } }

end Agent

namespace Running

/-! ## Feeding -/

def payloadNotJson : String := s!"invalid JSON payload: {Event.notJson}"

def decode (m : Moment) (payload : String) : Except Failure Event :=
  match Json.parse payload with
  | none => .error (.parse payloadNotJson)
  | some doc => (Event.ofJson m doc).mapError .protocol

def scene (r : Running σ) : Scene σ := r.agent.scene r.run.input r.run.metadata

def resume (r : Running σ) (scene : Scene σ) : Running σ :=
  { agent := r.agent.resume scene, run := { r.run with metadata := scene.context.metadata } }

def handle (r : Running σ) (e : Event) : Running σ :=
  match r.agent.handle e with
  | (some _, agent) => { r with agent }
  | (none, agent) => { agent, run := { r.run with eventsProcessed := r.run.eventsProcessed + 1 } }

def takeEvent (r : Running σ) (e : Event) : Running σ :=
  let (events, scene) := Chain.event r.agent.stages.values e r.scene
  events.foldl handle (r.resume scene)

def process (r : Running σ) (payload : String) : Except Failure (Running σ) :=
  match decode r.agent.clock.present payload with
  | .ok e => .ok (r.takeEvent e)
  | .error failure =>
    match r.agent.endpoint.policy with
    | .skip => .ok r
    | .abort => .error failure

/-- The run in progress with other payloads waiting in the framer. -/
def leave (r : Running σ) (ready : List String) : Running σ :=
  { r with agent := { r.agent with framer := { r.agent.framer with ready } } }

/-- Processes payloads in order, up to the first that is refused; those after it are left. -/
def processAll (r : Running σ) : List String → Option Failure × Running σ
  | [] => (none, r.leave [])
  | payload :: rest =>
    match r.process payload with
    | .ok r => r.processAll rest
    | .error failure => (some failure, r.leave rest)

def advance (r : Running σ) (framer : Framer) : Option Failure × Running σ :=
  { r with agent := { r.agent with framer } }.processAll framer.ready

def feed (r : Running σ) (piece : Bytes) : Option Failure × Running σ :=
  r.advance (r.agent.framer.feed piece)

/-! ## The end of a run -/

def result (r : Running σ) : RunResult :=
  { threadId := r.run.input.threadId
    runId := r.run.input.runId
    result := r.agent.session.result.getD .null
    newMessages := r.agent.session.messages.filter fun m ↦ !r.run.initialIds.contains m.id
    newState := r.agent.session.state }

/-- Finishes a run: what is in progress in the stream counts as ended, and the result passes the
stages. -/
def finish (r : Running σ) : Except Failure RunResult × Running σ :=
  match r.advance r.agent.framer.flush with
  | (some failure, r) => (.error failure, r)
  | (none, r) =>
    let (result, scene) := Chain.response r.agent.stages.values r.result r.scene
    let r := r.resume scene
    (.ok result, { r with agent := r.agent.tell (.runFinalized result) })

/-- Lets a run fail: what is in progress in the stream is discarded, and the failure passes the
stages. Gives the failure unless a stage suppresses it. -/
def fail (r : Running σ) (failure : Failure) : Option Failure × Running σ :=
  let r := { r with agent := { r.agent with framer := {} } }
  match Chain.error r.agent.stages.values failure r.scene with
  | (none, scene) => (none, r.resume scene)
  | (some failure, scene) =>
    let r := r.resume scene
    (some failure, { r with agent := r.agent.tell (.runFailed failure) })

end Running

end AgentSession
