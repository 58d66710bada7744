import AgentSession.Agent.Drive
import AgentSession.CommandLine.Arguments
import AgentSession.Config.Load
import AgentSession.Framing.Pieces
import AgentSession.LogLevel
import AgentSession.Middleware.Builtin
/-!
# What the commands do

Both commands read a capture, the bytes of an answer. `decode` says of each payload what event it
is. `replay` drives a run over the capture in pieces, by an agent whose configuration is read from
a file and the environment, and prints what the session has become. Whatever goes wrong, the
program then prints nothing and its status is one.
-/

namespace AgentSession

/-- What the program leaves behind. -/
structure Report where
  status : Nat := 0
  text : String := ""
deriving DecidableEq, Repr

namespace Report

/-- The report of a failure. -/
def failed : Report := { status := 1 }

def refused : Refusal → Report
  | .shown => {}
  | .wrong => { status := 2 }

def ofLines (lines : List String) : Report :=
  { text := String.join (lines.map (· ++ "\n")) }

end Report

/-- What the program takes from outside. -/
structure Surroundings where
  host : Host
  ids : IdSource
  clock : Clock

/-! ## Decoding -/

namespace Decode

/-- A number, with blanks in front that make it four characters wide. -/
def column (n : Nat) : String :=
  let digits := toString n
  String.ofList (List.replicate (4 - digits.length) ' ') ++ digits

def describe (m : Moment) (payload : String) : String :=
  match Event.parse m payload with
  | .ok e => e.type.name
  | .error e => s!"<malformed: {e.message}>"

def lines (m : Moment) (capture : Bytes) : List String :=
  (Framer.payloads capture).mapIdx fun i payload ↦ s!"{column i} {describe m payload}"

def report (s : Surroundings) (file : String) : Report :=
  match s.host.file file with
  | none => .failed
  | some capture => .ofLines (lines s.clock.present capture)

end Decode

/-! ## Replaying -/

namespace Replay

def config (host : Host) (path : Option String) : Except Failure Config := do
  let base ← match path with
    | some path => Config.load host path
    | none => .ok {}
  match base.override host.env with
  | (c, none) => .ok c
  | (_, some failure) => .error failure

def transport {σ : Type} (host : Host) (file : String) (chunkSize : Nat) : Transport σ :=
  fun _ memory ↦
    match host.file file with
    | none => (.error (.io s!"cannot read {file}"), memory)
    | some capture => (.ok ((capture.cut chunkSize).map .ok), memory)

/-- The blueprint of the agent. Its address is the one configured or else that of the file. -/
def blueprint (s : Surroundings) (c : Config) (file : String) : Blueprint :=
  let b := Blueprint.ofConfig c
  { b with url := c.url.getD s!"file://{file}", ids := s.ids }

def agent (s : Surroundings) (c : Config) (file : String) : Except Failure (Agent Unit) := do
  let a ← (blueprint s c file).build s.clock ()
  return { a with stages := (a.stages.add .logging).2 }

def document (session : Session) (r : RunResult) : Json :=
  .object [("threadId", .str r.threadId), ("runId", .str r.runId),
    ("messages", Message.listToJson session.messages), ("state", session.state),
    ("result", r.result)]

def callLine (call : ToolCall) : String :=
  s!"      -> {call.function.name}({call.function.arguments}) [{call.id}]"

def messageLines (m : Message) : List String :=
  s!"  [{m.role.name}] {m.id}: {m.content}" :: m.toolCalls.map callLine

def summary (session : Session) (r : RunResult) : List String :=
  s!"Messages ({session.messages.length}):" :: session.messages.flatMap messageLines ++
    s!"State: {session.state.compact}" ::
      (if r.result.isNull then [] else [s!"Result: {r.result.compact}"])

def printed (s : Surroundings) (file : String) (chunkSize : Nat) (path : Option String)
    (json : Bool) : Except Failure Report := do
  let c ← config s.host path
  let a ← agent s c file
  match a.run {} none (transport s.host file chunkSize) with
  | (.failed failure, _) => .error failure
  | (.suppressed, _) => .ok {}
  | (.finished result, a) =>
    if json then .ok (.ofLines [(document a.session result).indented])
    else .ok (.ofLines (summary a.session result))

def report (s : Surroundings) (file : String) (chunkSize : Nat) (path : Option String)
    (json : Bool) : Report :=
  match printed s file chunkSize path json with
  | .ok report => report
  | .error _ => .failed

end Replay

/-! ## The program -/

namespace Invocation

def levelKnown (i : Invocation) : Bool :=
  match i.logLevel with
  | some name => (LogLevel.ofName? name).isSome
  | none => true

def report (i : Invocation) (s : Surroundings) : Report :=
  if i.levelKnown then
    match i.command with
    | .replay file chunkSize path json => Replay.report s file chunkSize path json
    | .decode file => Decode.report s file
  else .failed

end Invocation

/-- The program: what it leaves behind when it is called with some arguments. -/
def program (s : Surroundings) (arguments : List String) : Report :=
  match Invocation.read arguments with
  | .ok i => i.report s
  | .error refusal => .refused refusal

end AgentSession
