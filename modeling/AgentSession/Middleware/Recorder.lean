import AgentSession.Middleware.Stage
import AgentSession.Slot
/-!
# A stage that records

A stage that writes a line for everything that passes it, and changes nothing, but may be set to
halt every run and to suppress every failure. Several such stages may write into one log, which
then shows in which order they acted.
-/

namespace AgentSession

/-- A stage that records. -/
structure StageRecorder where
  name : String
  halts : Bool := false
  suppresses : Bool := false
deriving DecidableEq, Repr

namespace StageRecorder

variable {σ : Type}

def write (r : StageRecorder) (log : Slot σ (List String)) (entry : String) (scene : Scene σ) :
    Scene σ :=
  scene.recall (log.push s!"{r.name}:{entry}" scene.memory)

def stage (r : StageRecorder) (log : Slot σ (List String)) : Stage σ where
  admitsRun _ scene := (!r.halts, scene.memory)
  onRequest input scene := (input, r.write log "request" scene)
  onResponse result scene := (result, r.write log "response" scene)
  onEvent e scene := (some e, r.write log s!"event:{e.type.name}" scene)
  onError failure scene :=
    (if r.suppresses then none else some failure, r.write log "error" scene)

end StageRecorder

end AgentSession
