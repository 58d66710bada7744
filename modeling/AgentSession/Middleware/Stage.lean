import AgentSession.Event.Basic
import AgentSession.Failure
import AgentSession.Request.Basic
import AgentSession.Text.Decimal
/-!
# Stages of middleware

A stage may act on what passes between a session and its agent: on the request of a run before it
is sent, on the result of a run, on a failure, and on every event. Every action is shown a context,
which it may change; stages leave notes for each other and for the caller in its metadata. As for
subscribers, all that stages remember is in a memory of a type `σ` that they share.

A stage that does nothing passes everything through as it is.
-/

namespace AgentSession

variable {σ : Type}

/-- What stages are shown besides the thing that they act on. -/
structure Context where
  input : Option RunInput := none
  messages : List Message
  state : Json
  now : Int
  proceed : Bool := true
  metadata : Dict String := []
deriving DecidableEq, Repr

/-- A context together with the memory of the stages. -/
structure Scene (σ : Type) where
  context : Context
  memory : σ

/-- A stage of middleware whose memory is part of `σ`. -/
structure Stage (σ : Type) where
  admitsRun : RunInput → Scene σ → Bool × σ := fun _ scene ↦ (true, scene.memory)
  onRequest : RunInput → Scene σ → RunInput × Scene σ := fun input scene ↦ (input, scene)
  onResponse : RunResult → Scene σ → RunResult × Scene σ := fun result scene ↦ (result, scene)
  /-- What it makes of a failure, or nothing if it suppresses it. -/
  onError : Failure → Scene σ → Option Failure × Scene σ := fun failure scene ↦ (failure, scene)
  admitsEvent : Event → Scene σ → Bool × σ := fun _ scene ↦ (true, scene.memory)
  beforeEvent : Event → Scene σ → List Event × Scene σ := fun _ scene ↦ ([], scene)
  /-- What it makes of an event, or nothing if it drops it. -/
  onEvent : Event → Scene σ → Option Event × Scene σ := fun event scene ↦ (event, scene)
  afterEvent : Event → Scene σ → List Event × Scene σ := fun _ scene ↦ ([], scene)

def Scene.note (scene : Scene σ) (key value : String) : Scene σ :=
  { scene with
    context := { scene.context with metadata := scene.context.metadata.insert key value } }

/-- The number that a note is; a note that is missing or no number counts as zero. -/
def Scene.number (scene : Scene σ) (key : String) : Nat :=
  match Decimal.parse ((scene.context.metadata.get? key).getD "").toList with
  | .ok n => n
  | .error _ => 0

/-- The scene in which a note that is a number has become one more. -/
def Scene.count (scene : Scene σ) (key : String) : Scene σ :=
  scene.note key (toString (scene.number key + 1))

def Scene.recall (scene : Scene σ) (memory : σ) : Scene σ := { scene with memory }

end AgentSession
