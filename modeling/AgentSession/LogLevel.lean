/-!
# Log levels

How much is logged. A level is named in any mixture of cases; no letter outside ASCII has a small
form that occurs in a name, so the cases of ASCII letters are all that matters.
-/

namespace AgentSession

inductive LogLevel where
  | trace
  | debug
  | info
  | warn
  | error
deriving DecidableEq, Repr

namespace LogLevel

def name : LogLevel → String
  | .trace => "trace"
  | .debug => "debug"
  | .info => "info"
  | .warn => "warn"
  | .error => "error"

/-- The names that are read, with their levels. -/
def names : List (String × LogLevel) :=
  [("trace", .trace), ("debug", .debug), ("info", .info), ("warn", .warn), ("warning", .warn),
    ("error", .error)]

def ofName? (s : String) : Option LogLevel := names.lookup (s.map Char.toLower)

end LogLevel

end AgentSession
