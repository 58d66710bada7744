import AgentSession.Json.Basic
import AgentSession.Message.Basic
/-!
# Mutations

A mutation is what a subscriber asks for: other messages, another state document, or that nothing
else be done about the event. Mutations are combined in the order in which they are asked for:
`Mutation.merge` is associative, and the mutation that asks for nothing is its unit.
-/

namespace AgentSession

/-- Changes that a subscriber asks for. -/
structure Mutation where
  messages : Option (List Message) := none
  state : Option Json := none
  /-- Whether nothing else is to be done about the event. -/
  stop : Bool := false
deriving DecidableEq, Repr

namespace Mutation

def nothing : Mutation := {}

def hasChanges (m : Mutation) : Bool := m.messages.isSome || m.state.isSome

/-- Combines a mutation with a later one: what the later one replaces wins, and a stop stays. -/
def merge (m later : Mutation) : Mutation :=
  { messages := later.messages <|> m.messages
    state := later.state <|> m.state
    stop := m.stop || later.stop }

@[simp] theorem merge_nothing (m : Mutation) : m.merge nothing = m := by
  simp [merge, nothing]

@[simp] theorem nothing_merge (m : Mutation) : nothing.merge m = m := by
  cases m with
  | mk messages state stop => cases messages <;> cases state <;> simp [merge, nothing]

theorem merge_assoc (a b c : Mutation) : (a.merge b).merge c = a.merge (b.merge c) := by
  cases hm : c.messages <;> cases hs : c.state <;> simp [merge, hm, hs, Bool.or_assoc]

end Mutation

end AgentSession
