import AgentSession.Agent.Drive
import AgentSession.Slot
/-!
# A transport that follows a script

A transport that delivers what a script says and keeps the requests that it receives.
-/

namespace AgentSession

/-- A piece that a script delivers, or the wording of a network failure. -/
abbrev ScriptStep := Except String Bytes

structure TransportScript where
  steps : List ScriptStep := []
  /-- The wording of a network failure in the place of a stream. -/
  openFailure : Option String := none

namespace TransportScript

variable {σ : Type}

def transport (s : TransportScript) (requests : Slot σ (List TransportRequest)) : Transport σ :=
  fun request memory ↦
    let memory := requests.push request memory
    match s.openFailure with
    | some message => (.error (.network message), memory)
    | none => (.ok (s.steps.map fun step ↦ step.mapError Failure.network), memory)

end TransportScript

end AgentSession
