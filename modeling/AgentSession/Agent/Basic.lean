import AgentSession.Config.Basic
import AgentSession.Framing.Framer
import AgentSession.Middleware.Stage
import AgentSession.Registry
import AgentSession.Session.Handle
import AgentSession.Text.Blank
/-!
# Agents

An agent is a session together with an endpoint that runs are sent to, the subscribers and the
stages of middleware that follow the runs, and the framer of the stream that is being read. What
subscribers, stages and the transport remember is in one memory of a type `σ`.

An agent is built from a blueprint, which may be taken from a configuration. Only the address of
the endpoint is required.
-/

namespace AgentSession

variable {σ : Type}

/-- What an agent takes from outside, one moment after the other. -/
structure Clock where
  moment : Nat → Moment
  passed : Nat := 0

namespace Clock

def present (c : Clock) : Moment := c.moment c.passed

def tick (c : Clock) : Clock := { c with passed := c.passed + 1 }

end Clock

structure Endpoint where
  url : String
  agentId : Option String
  headers : Dict String
  /-- How long the transport may take, in milliseconds. -/
  timeoutMs : Nat
  /-- What to do with a payload that is no event. -/
  policy : MalformedPolicy
deriving DecidableEq, Repr

structure Agent (σ : Type) where
  endpoint : Endpoint
  session : Session
  subscribers : Registry (Subscriber σ) := {}
  stages : Registry (Stage σ) := {}
  framer : Framer := {}
  clock : Clock
  /-- What subscribers, stages and the transport remember. -/
  memory : σ

/-! ## Blueprints -/

structure Blueprint where
  url : String
  agentId : Option String := none
  /-- Headers besides the usual ones, which they replace. -/
  headers : Dict String := []
  bearerToken : Option String := none
  timeoutMs : Option Nat := none
  messages : List Message := []
  /-- The state document to begin with, or the empty object. -/
  state : Option Json := none
  ids : IdSource := .sequential
  policy : MalformedPolicy := .skip
  history : Option HistorySettings := none

namespace Blueprint

/-- How long a transport may take where nothing else is said, in milliseconds. -/
def defaultTimeoutMs : Nat := 30000

/-- The headers that every request has unless they are replaced. -/
def usualHeaders : Dict String :=
  [("Accept", "text/event-stream"), ("Content-Type", "application/json")]

def ofConfig (c : Config) : Blueprint :=
  { url := c.url.getD ""
    agentId := c.agentId
    headers := c.headers.getD []
    bearerToken := c.bearerToken
    timeoutMs := c.timeoutMs
    policy := c.malformedPayload.getD .skip
    history := c.stateHistory }

/-- The headers of a request. The token replaces every other authorization. -/
def requestHeaders (b : Blueprint) : Dict String :=
  let headers := usualHeaders.override b.headers
  match b.bearerToken with
  | some token => headers.insert "Authorization" s!"Bearer {token}"
  | none => headers

def store (b : Blueprint) : StateStore :=
  let store : StateStore := { state := b.state.getD .empty }
  match b.history.filter HistorySettings.enabled with
  | some settings => store.enableHistory settings.maxEntries
  | none => store

def endpoint (b : Blueprint) : Endpoint :=
  { url := b.url
    agentId := b.agentId
    headers := b.requestHeaders
    timeoutMs := b.timeoutMs.getD defaultTimeoutMs
    policy := b.policy }

/-- Builds an agent, unless the address is blank. -/
def build (b : Blueprint) (clock : Clock) (memory : σ) : Except Failure (Agent σ) :=
  if Text.trimString b.url = "" then .error (.config .missingUrl)
  else .ok
    { endpoint := b.endpoint
      session := { messages := b.messages, store := b.store, ids := b.ids }
      clock
      memory }

end Blueprint

/-! ## Small changes -/

namespace Agent

def tell (a : Agent σ) (notice : Notice) : Agent σ :=
  { a with memory := Subscriber.tell a.subscribers.values notice a.memory }

def receive (a : Agent σ) (m : Message) : Agent σ :=
  let (session, memory) := a.session.receive a.subscribers.values m a.memory
  { a with session, memory }

def setMessages (a : Agent σ) (messages : List Message) : Agent σ :=
  { a with session := { a.session with messages } }

def setState (a : Agent σ) (doc : Json) : Agent σ :=
  { a with session := a.session.setState doc }

/-- Handles an event and commits what the subscribers ask for. Gives the failure if there is one;
what the event has done until then stays done. -/
def handle (a : Agent σ) (e : Event) : Option Failure × Agent σ :=
  let handled := a.session.handle a.subscribers.values e a.memory
  match handled.outcome with
  | .error failure =>
    (some failure, { a with session := handled.session, memory := handled.memory })
  | .ok m =>
    let (session, memory) := handled.session.commit a.subscribers.values m handled.memory
    (none, { a with session, memory })

def scene (a : Agent σ) (input : Option RunInput) (metadata : Dict String) : Scene σ :=
  { context :=
      { input, messages := a.session.messages, state := a.session.state,
        now := a.clock.present.now, metadata }
    memory := a.memory }

def resume (a : Agent σ) (scene : Scene σ) : Agent σ :=
  { a with clock := a.clock.tick, memory := scene.memory }

end Agent

end AgentSession
