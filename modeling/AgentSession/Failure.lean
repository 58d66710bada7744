import AgentSession.Json.PatchDocument
/-!
# Failures

Everything that can go wrong, as causes. A cause has a wording, a kind, a number that stays the
same between releases, and a suggested reaction. The wording of a JSON parser or of the operating
system is carried as text; nothing depends on it.
-/

namespace AgentSession

/-- Why a document or a text is no event. -/
inductive ProtocolError where
  | missingType
  | invalidDocument (message : String)
  | json (message : String)
deriving DecidableEq, Repr

def ProtocolError.message : ProtocolError → String
  | .missingType => "Event document has no \"type\" field"
  | .invalidDocument message => s!"Invalid event document: {message}"
  | .json message => s!"Invalid JSON: {message}"

def ProtocolError.name : ProtocolError → String
  | .missingType => "MissingType"
  | .invalidDocument _ => "InvalidDocument"
  | .json _ => "Json"

/-- What is wrong with a configuration. -/
inductive ConfigError where
  | invalidJson (path message : String)
  | missingUrl
  | invalidValue (key message : String)
  | envVarNotFound (name : String)
  | fileRefNotFound (path : String)
deriving DecidableEq, Repr

def ConfigError.message : ConfigError → String
  | .invalidJson path message => s!"invalid config at {path}: {message}"
  | .missingUrl => "agent url is required"
  | .invalidValue key message => s!"invalid value for {key}: {message}"
  | .envVarNotFound name => s!"environment variable not found: {name}"
  | .fileRefNotFound path => s!"file reference not found: {path}"

def ConfigError.name : ConfigError → String
  | .invalidJson _ _ => "InvalidJson"
  | .missingUrl => "MissingUrl"
  | .invalidValue _ _ => "InvalidValue"
  | .envVarNotFound _ => "EnvVarNotFound"
  | .fileRefNotFound _ => "FileRefNotFound"

/-- A failure of a session or of a run. -/
inductive Failure where
  | parse (message : String)
  | protocol (error : ProtocolError)
  /-- A patch that is malformed or cannot be applied, or another unusable request. -/
  | validation (message : String)
  | state (message : String)
  | network (message : String)
  | timeout (message : String)
  | config (error : ConfigError)
  /-- A failure of a subscriber or of a middleware stage. -/
  | execution (message : String)
  /-- A run that was cancelled or halted. -/
  | cancelled (reason : String)
  | io (message : String)
  | json (message : String)
deriving DecidableEq, Repr

namespace Failure

def message : Failure → String
  | .parse message => s!"parse error: {message}"
  | .protocol error => s!"parse error: {error.message}"
  | .validation message => s!"validation error: {message}"
  | .state message => s!"state error: {message}"
  | .network message => s!"network error: {message}"
  | .timeout message => s!"timeout: {message}"
  | .config error => s!"config error: {error.message}"
  | .execution message => s!"execution error: {message}"
  | .cancelled reason => s!"run cancelled: {reason}"
  | .io message => s!"io error: {message}"
  | .json message => s!"json error: {message}"

def name : Failure → String
  | .parse _ => "Parse"
  | .protocol error => s!"Protocol.{error.name}"
  | .validation _ => "Validation"
  | .state _ => "State"
  | .network _ => "Network"
  | .timeout _ => "Timeout"
  | .config error => s!"Config.{error.name}"
  | .execution _ => "Execution"
  | .cancelled _ => "Cancelled"
  | .io _ => "Io"
  | .json _ => "Json"

/-- The broad categories of failures. -/
inductive Kind where
  | config
  | network
  | parse
  | execution
  | timeout
  | validation
  | state
  | cancelled
  | unknown
deriving DecidableEq, Repr

def Kind.name : Kind → String
  | .config => "Config"
  | .network => "Network"
  | .parse => "Parse"
  | .execution => "Execution"
  | .timeout => "Timeout"
  | .validation => "Validation"
  | .state => "State"
  | .cancelled => "Cancelled"
  | .unknown => "Unknown"

def kind : Failure → Kind
  | .parse _ | .protocol _ | .json _ => .parse
  | .validation _ => .validation
  | .state _ => .state
  | .network _ => .network
  | .timeout _ => .timeout
  | .config _ => .config
  | .execution _ => .execution
  | .cancelled _ => .cancelled
  | .io _ => .unknown

/-- The number of a failure; its thousands tell the category. -/
def code : Failure → Nat
  | .parse _ | .protocol _ => 30003
  | .json _ => 30001
  | .validation _ => 60001
  | .state _ => 70002
  | .network _ => 20005
  | .timeout _ => 50001
  | .config .missingUrl => 10001
  | .config (.envVarNotFound _) | .config (.fileRefNotFound _) => 10002
  | .config (.invalidJson _ _) | .config (.invalidValue _ _) => 10003
  | .execution _ => 40001
  | .cancelled _ => 40004
  | .io _ => 990000

/-- What may be done about a failure. -/
inductive Recovery where
  | giveUp
  | retry
  | skip
deriving DecidableEq, Repr

/-- The suggested reaction to a failure. -/
def recovery (f : Failure) : Recovery :=
  match f.kind with
  | .network | .timeout => .retry
  | .parse => .skip
  | .config | .execution | .validation | .state | .cancelled | .unknown => .giveUp

def isRetryable (f : Failure) : Bool := f.recovery == .retry

def ofPointer (e : PointerError) : Failure := .validation e.message

def ofPath (path : Pointer) (e : PathError) : Failure := .validation (e.message path)

def ofPatchSyntax (e : PatchSyntaxError) : Failure := .validation e.message

def ofPatch (e : PatchFailure) : Failure := .validation e.message

end Failure

end AgentSession
