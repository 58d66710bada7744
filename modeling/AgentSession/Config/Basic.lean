import AgentSession.Json.Reader
import AgentSession.Message.Wire
import AgentSession.StateStore
/-!
# Configurations

A configuration is a record in which every setting may be left out. Configurations are layered:
`Config.merge` combines two, setting by setting and header by header, and the later one wins.
-/

namespace AgentSession

/-- What to do with a payload that is no event. -/
inductive MalformedPolicy where
  | skip
  | abort
deriving DecidableEq, Repr, Inhabited

namespace MalformedPolicy

def name : MalformedPolicy → String
  | .skip => "skip"
  | .abort => "abort"

def ofName? (s : String) : Option MalformedPolicy :=
  [MalformedPolicy.skip, .abort].find? fun p ↦ p.name == s

def toJson (p : MalformedPolicy) : Json := .str p.name

def reader : Reader MalformedPolicy := Reader.choice ofName?

end MalformedPolicy

/-- Whether a session keeps a history of its state, and how much of it. -/
structure HistorySettings where
  enabled : Bool := false
  maxEntries : Nat := StateStore.defaultLimit
deriving DecidableEq, Repr

namespace HistorySettings

def toJson (h : HistorySettings) : Json :=
  .object [("enabled", .bool h.enabled), ("max_entries", .nat h.maxEntries)]

def reader : Reader HistorySettings := fun depth w ↦ do
  let r ← Record.read ["enabled", "max_entries"] depth w
  let enabled ← r.withDefault "enabled" false Reader.bool
  let maxEntries ← r.withDefault "max_entries" StateStore.defaultLimit Reader.natural
  return { enabled, maxEntries }

end HistorySettings

structure Config where
  url : Option String := none
  agentId : Option String := none
  headers : Option (Dict String) := none
  bearerToken : Option String := none
  timeoutMs : Option Nat := none
  malformedPayload : Option MalformedPolicy := none
  stateHistory : Option HistorySettings := none
  logLevel : Option String := none
deriving DecidableEq, Repr

namespace Config

/-- A member of a written configuration, if it is set. -/
def member {α : Type} (key : String) (write : α → Json) (value : Option α) :
    List (String × Json) :=
  match value with
  | some a => [(key, write a)]
  | none => []

def headersToJson (headers : Dict String) : Json :=
  .obj (headers.map fun h ↦ (h.1, .str h.2))

/-- Writes a configuration, without what is left out. -/
def toJson (c : Config) : Json :=
  .object <|
    member "url" .str c.url ++ member "agent_id" .str c.agentId ++
      member "headers" headersToJson c.headers ++ member "bearer_token" .str c.bearerToken ++
      member "timeout_ms" .nat c.timeoutMs ++
      member "malformed_payload" MalformedPolicy.toJson c.malformedPayload ++
      member "state_history" HistorySettings.toJson c.stateHistory ++
      member "log_level" .str c.logLevel

/-- The names of the settings, in the order of a configuration that is written as an array. -/
def names : List String :=
  ["url", "agent_id", "headers", "bearer_token", "timeout_ms", "malformed_payload",
    "state_history", "log_level"]

def reader : Reader Config := fun depth w ↦ do
  let r ← Record.read names depth w
  let url ← r.withDefault "url" none (Reader.optional Reader.text)
  let agentId ← r.withDefault "agent_id" none (Reader.optional Reader.text)
  let headers ← r.withDefault "headers" none (Reader.optional (Reader.dict Reader.text))
  let bearerToken ← r.withDefault "bearer_token" none (Reader.optional Reader.text)
  let timeoutMs ← r.withDefault "timeout_ms" none (Reader.optional Reader.natural)
  let malformedPayload ←
    r.withDefault "malformed_payload" none (Reader.optional MalformedPolicy.reader)
  let stateHistory ← r.withDefault "state_history" none (Reader.optional HistorySettings.reader)
  let logLevel ← r.withDefault "log_level" none (Reader.optional Reader.text)
  return { url, agentId, headers, bearerToken, timeoutMs, malformedPayload, stateHistory, logLevel }

/-! ## Layers -/

def mergeHeaders (base later : Option (Dict String)) : Option (Dict String) :=
  match base, later with
  | some b, some l => some (b.override l)
  | b, none => b
  | none, l => l

/-- Two configurations in one, of which the later one wins. -/
def merge (base later : Config) : Config :=
  { url := later.url <|> base.url
    agentId := later.agentId <|> base.agentId
    headers := mergeHeaders base.headers later.headers
    bearerToken := later.bearerToken <|> base.bearerToken
    timeoutMs := later.timeoutMs <|> base.timeoutMs
    malformedPayload := later.malformedPayload <|> base.malformedPayload
    stateHistory := later.stateHistory <|> base.stateHistory
    logLevel := later.logLevel <|> base.logLevel }

end Config

end AgentSession
