import AgentSession.Config.Basic
import AgentSession.Config.Comments
import AgentSession.Config.Variables
/-!
# Where configurations come from

A configuration is read from a text with comments, or from a file, in which variables are replaced
before the comments are removed. Some settings are overridden by environment variables.
-/

namespace AgentSession.Config

/-- Stands for the path of a text that is not from a file. -/
def inlineSource : String := "<inline>"

/-- What is said of a text that is no configuration. -/
def notConfig : String := "malformed configuration"

/-- The configuration of a text; `source` says where it is from. -/
def read (source : String) (text : List Char) : Except Failure Config :=
  match reader.run (Comments.strip text) with
  | some c => .ok c
  | none => .error (.config (.invalidJson source notConfig))

/-- The configuration of a text, in which variables are not replaced. -/
def parse (text : String) : Except Failure Config := read inlineSource text.toList

def load (host : Host) (path : String) : Except Failure Config :=
  match host.text path with
  | none => .error (.io s!"cannot read {path}")
  | some text =>
    match Variable.substitute (Variable.resolve host path) text with
    | .error e => .error (.config e)
    | .ok text => read path text

/-! ## Overrides -/

def urlVariable : String := "AGSTREAM_URL"

def agentIdVariable : String := "AGSTREAM_AGENT_ID"

def bearerTokenVariable : String := "AGSTREAM_BEARER_TOKEN"

def timeoutVariable : String := "AGSTREAM_TIMEOUT_MS"

def overrideVariables : List String :=
  [urlVariable, agentIdVariable, bearerTokenVariable, timeoutVariable]

/-- A configuration with the overrides of an environment, and the failure if the time limit there
is no number; the other overrides then stay. -/
def override (c : Config) (env : String → Option String) : Config × Option Failure :=
  let c := match env urlVariable with
    | some url => { c with url := some url }
    | none => c
  let c := match env agentIdVariable with
    | some agentId => { c with agentId := some agentId }
    | none => c
  let c := match env bearerTokenVariable with
    | some token => { c with bearerToken := some token }
    | none => c
  match env timeoutVariable with
  | none => (c, none)
  | some text =>
    match Decimal.parse (Text.trim text.toList) with
    | .ok ms => ({ c with timeoutMs := some ms }, none)
    | .error e => (c, some (.config (.invalidValue timeoutVariable e.message)))

end AgentSession.Config
