import AgentSession.Middleware.Stage
/-!
# Stages without memory

Three stages that remember nothing. A logging stage changes nothing that can be seen here; a
deadline is only noted in the metadata, for the transport to enforce; a filter refuses events of
the types it blocks.
-/

namespace AgentSession

variable {σ : Type}

/-- The stage that reports what passes. -/
def Stage.logging : Stage σ := {}

/-- The time that a run may take where no other is given, in milliseconds. -/
def Stage.defaultDeadline : Nat := 30000

/-- The stage that notes the time a run may take, and when it began. -/
def Stage.deadline (ms : Nat) : Stage σ where
  onRequest input scene :=
    (input, (scene.note "timeout_ms" (toString ms)).note "start_time" (toString scene.context.now))

structure EventFilter where
  blocked : List EventType := []
deriving DecidableEq, Repr

namespace EventFilter

def blocks (f : EventFilter) (t : EventType) : Bool := f.blocked.contains t

def block (f : EventFilter) (t : EventType) : EventFilter := ⟨t :: f.blocked⟩

def allow (f : EventFilter) (t : EventType) : EventFilter := ⟨f.blocked.filter (· ≠ t)⟩

def stage (f : EventFilter) : Stage σ where
  admitsEvent event scene := (!f.blocks event.type, scene.memory)

end EventFilter

end AgentSession
