import AgentSession.Event.Basic
import AgentSession.Failure
import AgentSession.Request.Basic
import AgentSession.Session.Mutation
/-!
# Subscribers

A subscriber is asked about every event twice: first in general, then about what its kind says,
together with the text gathered so far where the kind has one. It answers with a mutation or fails.
Besides, it is told what happens to the session, which it cannot answer.

All that subscribers remember is in a memory of a type `σ` that they share. So a subscriber is a
few functions of what it is shown and of the memory, and a statement for every memory and every
such function is one about arbitrary subscribers.
-/

namespace AgentSession

variable {σ : Type}

/-- What a subscriber is shown of the session. -/
structure View where
  messages : List Message
  state : Json
  input : Option RunInput
deriving DecidableEq, Repr

inductive Notice where
  | newMessage (message : Message)
  | newToolCall (call : ToolCall)
  | messagesChanged (messages : List Message)
  | stateChanged (state : Json)
  | runInitialized (input : RunInput)
  | runFailed (failure : Failure)
  | runFinalized (result : RunResult)
deriving DecidableEq, Repr

/-- A subscriber's answer, with the memory afterwards. -/
abbrev Answer (σ : Type) := Except Failure Mutation × σ

/-- A subscriber whose memory is part of `σ`. -/
structure Subscriber (σ : Type) where
  /-- What it answers to an event in general. -/
  onEvent : Event → View → σ → Answer σ := fun _ _ memory ↦ (.ok .nothing, memory)
  /-- What it answers to what an event says. -/
  onKind : EventKind → String → View → σ → Answer σ := fun _ _ _ memory ↦ (.ok .nothing, memory)
  notify : Notice → σ → σ := fun _ memory ↦ memory

namespace Subscriber

/-- Asks subscribers in their order, up to the first that fails or asks to stop, and combines their
answers. -/
def askAll (ask : Subscriber σ → σ → Answer σ) : List (Subscriber σ) → σ → Answer σ
  | [], memory => (.ok .nothing, memory)
  | s :: rest, memory =>
    match ask s memory with
    | (.error failure, memory) => (.error failure, memory)
    | (.ok m, memory) =>
      if m.stop then (.ok m, memory)
      else
        match askAll ask rest memory with
        | (.error failure, memory) => (.error failure, memory)
        | (.ok later, memory) => (.ok (m.merge later), memory)

def tell (subscribers : List (Subscriber σ)) (notice : Notice) (memory : σ) : σ :=
  subscribers.foldl (fun memory s ↦ s.notify notice memory) memory

def tellAll (subscribers : List (Subscriber σ)) (notices : List Notice) (memory : σ) : σ :=
  notices.foldl (fun memory notice ↦ tell subscribers notice memory) memory

end Subscriber

end AgentSession
