import AgentSession.Middleware.Stage
import AgentSession.Slot
/-!
# Retry budgets

A budget lets each run fail a number of times in a way that may be tried again. Within the budget
the failure is suppressed and counted, and the caller finds in the metadata which attempt is due
and after what delay. Beyond it the failure passes and the count is forgotten, as it is when the
run succeeds. Counts of different runs are independent.
-/

namespace AgentSession

variable {σ : Type}

/-- A retry budget. -/
structure Retry where
  /-- How many failures of a run are suppressed. -/
  maxRetries : Nat := 3
  /-- The delay that is asked for, in milliseconds. -/
  delayMs : Nat := 1000
deriving DecidableEq, Repr

/-- How often each run has failed since its count was forgotten. -/
abbrev Attempts := Dict Nat

namespace Retry

def attempts (counts : Attempts) (runId : String) : Nat := (counts.get? runId).getD 0

/-- Counts a failure of a run that may be tried again: which attempt is due, or none if the budget
is used up. -/
def count (r : Retry) (runId : String) (counts : Attempts) : Option Nat × Attempts :=
  let n := attempts counts runId
  if r.maxRetries ≤ n then (none, counts.erase runId)
  else (some (n + 1), counts.insert runId (n + 1))

def succeed (runId : String) (counts : Attempts) : Attempts := counts.erase runId

/-- The stage of a budget, whose counts are in a slot of the memory. -/
def stage (r : Retry) (slot : Slot σ Attempts) : Stage σ where
  onResponse result scene :=
    (result, scene.recall (slot.put (succeed result.runId (slot.get scene.memory)) scene.memory))
  onError failure scene :=
    if failure.isRetryable then
      let runId := (scene.context.input.map RunInput.runId).getD ""
      let (due, counts) := r.count runId (slot.get scene.memory)
      let scene := scene.recall (slot.put counts scene.memory)
      match due with
      | none => (some failure, scene)
      | some attempt =>
        (none, (scene.note "retry_attempt" (toString attempt)).note "retry_delay_ms"
          (toString r.delayMs))
    else (some failure, scene)

end Retry

end AgentSession
