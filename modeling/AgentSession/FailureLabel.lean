import AgentSession.Failure
/-!
# Failures by label

Scripts that make something fail name a failure by a label. Most failures carry a message, and some
a key: the path, the setting or the variable that they are about.
-/

namespace AgentSession.Failure

/-- The failure with a label. Every label that is not known stands for a file that cannot be
read. -/
def labelled (label key message : String) : Failure :=
  match label with
  | "parse" => .parse message
  | "validation" => .validation message
  | "state" => .state message
  | "network" => .network message
  | "timeout" => .timeout message
  | "execution" => .execution message
  | "cancelled" => .cancelled message
  | "missing_type" => .protocol .missingType
  | "invalid_document" => .protocol (.invalidDocument message)
  | "protocol_json" => .protocol (.json message)
  | "json" => .json message
  | "io" => .io message
  | "missing_url" => .config .missingUrl
  | "invalid_json" => .config (.invalidJson key message)
  | "invalid_value" => .config (.invalidValue key message)
  | "env_var" => .config (.envVarNotFound key)
  | _ => .config (.fileRefNotFound key)

end AgentSession.Failure
