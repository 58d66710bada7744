import AgentSession.Failure
import AgentSession.Path
import AgentSession.Text.Blank
import AgentSession.Text.Cut
import AgentSession.Text.Utf8
/-!
# Variables

A configuration file may refer to environment variables and to other files. A reference is a brace
with the kind, a colon, and everything up to the next closing brace, which must not be nothing.
References are found in the text of the file, from left to right and without overlaps. Then each
in turn is resolved, and every occurrence of its text in the result so far is replaced by its
value.

What a file refers to is looked up in a `Host`, which knows the files and the environment.
-/

namespace AgentSession

/-- The files and the environment that a program runs with. -/
structure Host where
  file : String → Option Bytes
  env : String → Option String

def Host.text (host : Host) (path : String) : Option (List Char) :=
  (host.file path).bind Utf8.strict

/-- What a reference refers to. -/
inductive Variable where
  | env (name : List Char)
  | file (path : List Char)
deriving DecidableEq, Repr

namespace Variable

def envOpening : List Char := ['\x7b', 'e', 'n', 'v', ':']

def fileOpening : List Char := ['\x7b', 'f', 'i', 'l', 'e', ':']

def spelling : Variable → List Char
  | .env name => envOpening ++ name ++ ['\x7d']
  | .file path => fileOpening ++ path ++ ['\x7d']

/-- The word up to the closing brace at which it must end. -/
def wordAt (text : List Char) : Option (List Char) :=
  match Text.splitFirst '\x7d' text with
  | some ([], _) | none => none
  | some (word, _) => some word

def atFront? (text : List Char) : Option Variable :=
  if envOpening.isPrefixOf text then (wordAt (text.drop envOpening.length)).map .env
  else if fileOpening.isPrefixOf text then (wordAt (text.drop fileOpening.length)).map .file
  else none

/-- The references of a text after the next `skip` characters, which belong to a reference found
already. -/
def allFrom : Nat → List Char → List Variable
  | _, [] => []
  | skip + 1, _ :: rest => allFrom skip rest
  | 0, c :: rest =>
    match atFront? (c :: rest) with
    | some v => v :: allFrom (v.spelling.length - 1) rest
    | none => allFrom 0 rest

def all (text : List Char) : List Variable := allFrom 0 text

/-- The path of the file that a reference in a configuration file refers to. -/
def filePath (configPath : String) (path : List Char) : String :=
  Path.join ((Path.parent? configPath).getD ".") (String.ofList path)

def resolve (host : Host) (configPath : String) : Variable → Except ConfigError (List Char)
  | .env name =>
    match host.env (String.ofList name) with
    | some value => .ok value.toList
    | none => .error (.envVarNotFound (String.ofList name))
  | .file path =>
    match host.text (filePath configPath path) with
    | some text => .ok (Text.trim text)
    | none => .error (.fileRefNotFound (filePath configPath path))

def substituteAll (value : Variable → Except ConfigError (List Char)) :
    List Variable → List Char → Except ConfigError (List Char)
  | [], text => .ok text
  | v :: vs, text =>
    match value v with
    | .ok replacement => substituteAll value vs (Text.replaceAll v.spelling replacement text)
    | .error e => .error e

def substitute (value : Variable → Except ConfigError (List Char)) (text : List Char) :
    Except ConfigError (List Char) :=
  substituteAll value (all text) text

end Variable

end AgentSession
