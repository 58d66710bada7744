/-!
# Registries

A registry keeps things in the order in which they were added, and gives each a number by which
it can be removed. Numbers start at one and are never given twice.
-/

namespace AgentSession

universe u

variable {α : Type u}

/-- Things that were added, with their numbers. -/
structure Registry (α : Type u) where
  entries : List (Nat × α) := []
  /-- How many numbers have been given. -/
  issued : Nat := 0

namespace Registry

def add (r : Registry α) (a : α) : Nat × Registry α :=
  (r.issued + 1, { entries := r.entries ++ [(r.issued + 1, a)], issued := r.issued + 1 })

/-- Removes the thing with a number, and tells whether there was one. -/
def remove (r : Registry α) (id : Nat) : Bool × Registry α :=
  (r.entries.any fun e ↦ e.1 == id, { r with entries := r.entries.filter fun e ↦ e.1 != id })

def clear (r : Registry α) : Registry α := { r with entries := [] }

def values (r : Registry α) : List α := r.entries.map (·.2)

def size (r : Registry α) : Nat := r.entries.length

end Registry

end AgentSession
