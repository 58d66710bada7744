import AgentSession.Middleware.Stage
/-!
# Chains of stages

A chain is a list of stages. Requests and events pass them in this order, results and failures in
the reverse order, so that the last stage is the innermost.

A stage that halts a request still acts on it, and is the last to do so. A stage that suppresses a
failure is the last to see it. An event that is dropped is seen by no later stage; an event that is
refused takes with it everything that earlier stages added to it.
-/

namespace AgentSession

variable {σ : Type}

namespace Chain

def request : List (Stage σ) → RunInput → Scene σ → RunInput × Scene σ
  | [], input, scene => (input, scene)
  | stage :: stages, input, scene =>
    let (admitted, memory) := stage.admitsRun input scene
    let (input, scene) := stage.onRequest input (scene.recall memory)
    if admitted then request stages input scene
    else (input, { scene with context := { scene.context with proceed := false } })

def response (stages : List (Stage σ)) (result : RunResult) (scene : Scene σ) :
    RunResult × Scene σ :=
  stages.foldr (fun stage (result, scene) ↦ stage.onResponse result scene) (result, scene)

/-- Passes a failure; there is none left if a stage suppresses it. -/
def error (stages : List (Stage σ)) (failure : Failure) (scene : Scene σ) :
    Option Failure × Scene σ :=
  stages.foldr
    (fun stage (failure, scene) ↦
      match failure with
      | some failure => stage.onError failure scene
      | none => (none, scene))
    (some failure, scene)

/-- What becomes of an event that is not refused. -/
structure Passage where
  before : List Event := []
  /-- The event, if it is not dropped. -/
  current : Option Event := none
  after : List Event := []
deriving DecidableEq, Repr

/-- All events to be handled, in their order. -/
def Passage.events (p : Passage) : List Event := p.before ++ p.current.toList ++ p.after

/-- Passes an event; there is no passage if a stage refuses it. -/
def passage : List (Stage σ) → Event → Scene σ → Option Passage × Scene σ
  | [], event, scene => (some { current := some event }, scene)
  | stage :: stages, event, scene =>
    let (admitted, memory) := stage.admitsEvent event scene
    let scene := scene.recall memory
    if admitted then
      let (before, scene) := stage.beforeEvent event scene
      match stage.onEvent event scene with
      | (none, scene) => (some { before }, scene)
      | (some event, scene) =>
        let (after, scene) := stage.afterEvent event scene
        match passage stages event scene with
        | (none, scene) => (none, scene)
        | (some rest, scene) =>
          (some ⟨before ++ rest.before, rest.current, after ++ rest.after⟩, scene)
    else (none, scene)

def event (stages : List (Stage σ)) (e : Event) (scene : Scene σ) : List Event × Scene σ :=
  match passage stages e scene with
  | (none, scene) => ([], scene)
  | (some p, scene) => (p.events, scene)

end Chain

end AgentSession
