import AgentSession.Text.Cut
import AgentSession.Text.Decimal
/-!
# Arguments of the command line

The program has two commands, `replay` and `decode`, each of which takes the name of a file. Both
take the switches that the program takes in front of the command; `replay` takes some more. A
switch has a long name after two dashes, and some have a short one after a single dash. Its value
stands after an equals sign or in the next argument, which must then not begin with a dash, and
the value of a short switch may follow it directly. Short switches without a value may be written
together. A switch is given at most once in front of the command and once after it. After an
argument of two dashes there are no more switches. After the command `help`, every argument counts
as a word, and only the name of one command may follow.

Arguments are read from left to right, and the first that is wrong, or that asks for help, decides.
-/

namespace AgentSession

inductive Switch where
  | logLevel
  | verbose
  | logFile
  | chunkSize
  | config
  | json
  | help
  | version
deriving DecidableEq, Repr

/-- Where in the arguments one is. -/
inductive Level where
  | top
  | replay
  | decode
  /-- After the command `help`, which may be followed by the name of a command only. -/
  | help
  /-- After the name of the command that help is asked for. -/
  | helpOn
deriving DecidableEq, Repr

/-- Why no command is run. -/
inductive Refusal where
  | shown
  | wrong
deriving DecidableEq, Repr

namespace Switch

def all : List Switch :=
  [.logLevel, .verbose, .logFile, .chunkSize, .config, .json, .help, .version]

def long : Switch → String
  | .logLevel => "log-level"
  | .verbose => "verbose"
  | .logFile => "log-file"
  | .chunkSize => "chunk-size"
  | .config => "config"
  | .json => "json"
  | .help => "help"
  | .version => "version"

def short? : Switch → Option Char
  | .verbose => some 'v'
  | .config => some 'c'
  | .help => some 'h'
  | .version => some 'V'
  | .logLevel | .logFile | .chunkSize | .json => none

def knownAt : Level → Switch → Bool
  | .top, s => s ∉ [.chunkSize, .config, .json]
  | .replay, s => s ≠ .version
  | .decode, s => s ∉ [.chunkSize, .config, .json, .version]
  | .help, _ | .helpOn, _ => false

def hasValue : Switch → Bool
  | .logLevel | .chunkSize | .config => true
  | .verbose | .logFile | .json | .help | .version => false

def accepts : Switch → String → Bool
  | .chunkSize, text => (Decimal.parse text.toList).toBool
  | .config, text => text ≠ ""
  | _, _ => true

def ofLong? (level : Level) (name : List Char) : Option Switch :=
  all.find? fun s ↦ s.knownAt level && s.long.toList == name

def ofShort? (level : Level) (c : Char) : Option Switch :=
  all.find? fun s ↦ s.knownAt level && s.short? == some c

end Switch

/-- The switches given at a level, with their values. -/
abbrev Given := List (Switch × String)

/-- What is known after some of the arguments. -/
structure Arguments where
  level : Level := .top
  before : Given := []
  given : Given := []
  pending : Option Switch := none
  /-- Whether there are no more switches. -/
  plain : Bool := false
  file : Option String := none

namespace Arguments

def give (a : Arguments) (s : Switch) (value : String) : Except Refusal Arguments :=
  if s = .help ∨ s = .version then .error .shown
  else if (a.given.lookup s).isSome ∨ !s.accepts value then .error .wrong
  else .ok { a with given := a.given ++ [(s, value)], pending := none }

def takeLong (a : Arguments) (text : List Char) : Except Refusal Arguments :=
  match Text.splitFirst '=' text with
  | some (name, value) =>
    match (Switch.ofLong? a.level name).filter Switch.hasValue with
    | some s => a.give s (String.ofList value)
    | none => .error .wrong
  | none =>
    match Switch.ofLong? a.level text with
    | some s => if s.hasValue then .ok { a with pending := some s } else a.give s ""
    | none => .error .wrong

/-- The value that directly follows a short switch, with or without an equals sign. -/
def attached : List Char → List Char
  | '=' :: value => value
  | value => value

def takeShort (a : Arguments) : List Char → Except Refusal Arguments
  | [] => .ok a
  | c :: rest =>
    match Switch.ofShort? a.level c with
    | none => .error .wrong
    | some s =>
      if s.hasValue then
        match rest with
        | [] => .ok { a with pending := some s }
        | rest => a.give s (String.ofList (attached rest))
      else
        match a.give s "" with
        | .ok a => takeShort a rest
        | .error refusal => .error refusal

def enter (a : Arguments) (level : Level) : Except Refusal Arguments :=
  .ok { level, before := a.given }

def takeWord (a : Arguments) (word : String) : Except Refusal Arguments :=
  match a.level with
  | .top =>
    if a.plain then .error .wrong
    else match word with
      | "replay" => a.enter .replay
      | "decode" => a.enter .decode
      | "help" => a.enter .help
      | _ => .error .wrong
  | .replay | .decode =>
    if a.file.isSome ∨ word = "" then .error .wrong else .ok { a with file := some word }
  | .help => if word ∈ ["replay", "decode", "help"] then a.enter .helpOn else .error .wrong
  | .helpOn => .error .wrong

def onlyWords (a : Arguments) : Bool :=
  a.plain || a.level = .help || a.level = .helpOn

def take (a : Arguments) (argument : String) : Except Refusal Arguments :=
  match a.pending with
  | some s =>
    match argument.toList with
    | '-' :: _ :: _ => .error .wrong
    | _ => a.give s argument
  | none =>
    if a.onlyWords then a.takeWord argument
    else match argument.toList with
      | ['-', '-'] => .ok { a with plain := true }
      | '-' :: '-' :: text => a.takeLong text
      | '-' :: c :: text => a.takeShort (c :: text)
      | _ => a.takeWord argument

end Arguments

/-! ## Commands -/

inductive Command where
  | replay (file : String) (chunkSize : Nat) (config : Option String) (json : Bool)
  | decode (file : String)
deriving DecidableEq, Repr

structure Invocation where
  logLevel : Option String
  command : Command
deriving DecidableEq, Repr

namespace Invocation

/-- How many bytes make a piece of a capture where no number is given. -/
def defaultChunkSize : Nat := 4096

def chunkSize (given : Given) : Nat :=
  match (given.lookup .chunkSize).map fun text ↦ Decimal.parse text.toList with
  | some (.ok n) => n
  | _ => defaultChunkSize

/-- What the program is called with, after all arguments. The log level that is given last
counts. -/
def ofArguments (a : Arguments) : Except Refusal Invocation :=
  let logLevel := a.given.lookup .logLevel <|> a.before.lookup .logLevel
  match a.pending, a.level, a.file with
  | none, .replay, some file =>
    .ok ⟨logLevel, .replay file (chunkSize a.given) (a.given.lookup .config)
      (a.given.lookup .json).isSome⟩
  | none, .decode, some file => .ok ⟨logLevel, .decode file⟩
  | none, .help, _ | none, .helpOn, _ => .error .shown
  | _, _, _ => .error .wrong

def read (arguments : List String) : Except Refusal Invocation :=
  (arguments.foldlM Arguments.take {}).bind ofArguments

end Invocation

end AgentSession
