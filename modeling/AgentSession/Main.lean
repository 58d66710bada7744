import AgentSession.CommandLine.Replay
import Std.Time.DateTime.Timestamp
/-!
# The program

All that happens here is input and output: the files and environment variables that the command may
look at are read beforehand, as are the time and a random number, from which identifiers are made.
-/

namespace AgentSession.Main

/-- The bytes of a file, if it can be read. -/
def readFile (path : String) : IO (Option Bytes) := do
  try
    let bytes ← IO.FS.readBinFile path
    return some bytes.toList
  catch _ => return none

/-- The files of a configuration, and the environment variables that it refers to. -/
def readConfig (path : String) : IO (Dict Bytes × Dict String) := do
  let some bytes ← readFile path | return ([], [])
  let mut files : Dict Bytes := [(path, bytes)]
  let mut env : Dict String := []
  for v in Variable.all ((Utf8.strict bytes).getD []) do
    match v with
    | .env name =>
      if let some value ← IO.getEnv (String.ofList name) then
        env := env.insert (String.ofList name) value
    | .file relative =>
      let file := Variable.filePath path relative
      if let some content ← readFile file then
        files := files.insert file content
  return (files, env)

def readHost (command : Command) : IO Host := do
  let (capture, config) := match command with
    | .replay file _ config _ => (file, config)
    | .decode file => (file, none)
  let mut (files, env) ← match config with
    | some path => readConfig path
    | none => pure ([], [])
  if let some bytes ← readFile capture then
    files := files.insert capture bytes
  for name in Config.overrideVariables do
    if let some value ← IO.getEnv name then
      env := env.insert name value
  return { file := Dict.get? files, env := Dict.get? env }

/-- How many words the session may draw, and each moment. -/
def share : Nat := Nat.pow 2 32

def readSurroundings (command : Command) : IO Surroundings := do
  let host ← readHost command
  let now := (← Std.Time.Timestamp.now).toMillisecondsSinceUnixEpoch.val
  let noise ← IO.getRandomBytes 8
  let seed := noise.toList.foldl (fun n b ↦ n * 256 + b.toNat) 0
  let word := Ulid.sequence now.toNat seed
  let freshId (n i : Nat) : String := Identifier.ofUlid .message (word ((n + 1) * share + i))
  let clock : Clock := { moment := fun n ↦ { now, freshId := freshId n } }
  return { host, ids := .ofUlids word, clock }

end AgentSession.Main

def main (arguments : List String) : IO UInt32 := do
  match AgentSession.Invocation.read arguments with
  | .error refusal => return UInt32.ofNat (AgentSession.Report.refused refusal).status
  | .ok invocation =>
    let report := invocation.report (← AgentSession.Main.readSurroundings invocation.command)
    IO.print report.text
    return UInt32.ofNat report.status
