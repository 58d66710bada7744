import AgentSession.Message.Wire
/-!
# Requests and results of runs

A run is asked for by a request document and ends with a result. The caller gives parameters, in
which everything may be left out; the session fills in the rest.
-/

namespace AgentSession

structure Tool where
  name : String
  description : String := ""
  parameters : Json := .empty
deriving DecidableEq, Repr

/-- A piece of context that is passed on to the agent. -/
structure ContextItem where
  description : String
  value : String
deriving DecidableEq, Repr

/-- What a run is asked for with. -/
structure RunInput where
  threadId : String
  runId : String
  state : Json := .empty
  messages : List Message := []
  tools : List Tool := []
  context : List ContextItem := []
  /-- A document that is passed on as it is. -/
  forwardedProps : Json := .empty
deriving DecidableEq, Repr

/-- What a run ends with. -/
structure RunResult where
  threadId : String
  runId : String
  result : Json
  /-- The messages that the run added. -/
  newMessages : List Message
  newState : Json
deriving DecidableEq, Repr

/-- What a caller asks for. -/
structure RunParams where
  threadId : Option String := none
  runId : Option String := none
  tools : List Tool := []
  context : List ContextItem := []
  forwardedProps : Option Json := none
  state : Option Json := none
  messages : List Message := []
deriving DecidableEq, Repr

namespace RunParams

def threadIdOr (p : RunParams) (fresh : String) : String := p.threadId.getD fresh

def runIdOr (p : RunParams) (fresh : String) : String := p.runId.getD fresh

end RunParams

end AgentSession
