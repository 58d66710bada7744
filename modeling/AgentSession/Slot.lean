/-!
# Slots of a memory

Subscribers, stages and transports share one memory. Those that remember something are given a
slot of it, so that they need not know what else it holds.
-/

namespace AgentSession

/-- A part of type `τ` of a memory of type `σ`. -/
structure Slot (σ τ : Type) where
  get : σ → τ
  put : τ → σ → σ

namespace Slot

variable {σ τ : Type}

def push (slot : Slot σ (List τ)) (a : τ) (memory : σ) : σ :=
  slot.put (slot.get memory ++ [a]) memory

def whole : Slot σ σ := ⟨id, fun memory _ ↦ memory⟩

end Slot

end AgentSession
