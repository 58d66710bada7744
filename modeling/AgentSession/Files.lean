import AgentSession.Config.Variables
/-!
# Files and an environment in memory

A working directory whose files are given with their paths, for programs that run without a disk.
A path is followed part by part: two dots lead to the directory above, and every part but the last
must name a directory, which is a place with files below it. Nothing outside the working directory
can be reached.

The environment is kept as lines, each a name, an equals sign and a value. A variable is looked up
by the beginning of a line, so a name with an equals sign in it can be found as well: part of the
value then counts as part of the name.
-/

namespace AgentSession

namespace Path

/-- The parts of a path that lead somewhere. -/
def parts (path : String) : List String :=
  ((Text.splitAll '/' path.toList).map String.ofList).filter fun part ↦ part ≠ "" && part ≠ "."

/-- Whether a path can only mean a directory. -/
def endsInDirectory (path : String) : Bool :=
  match path.toList.reverse with
  | [] | '/' :: _ | ['.'] | '.' :: '/' :: _ => true
  | _ => false

/-- The place that parts lead to from another one, outermost part first. -/
def walk (isDirectory : List String → Bool) : List String → List String → Option (List String)
  | place, [] => some place
  | place, part :: rest =>
    if !isDirectory place then none
    else if part ≠ ".." then walk isDirectory (place ++ [part]) rest
    else if place.isEmpty then none
    else walk isDirectory place.dropLast rest

end Path

structure Files where
  entries : List (List String × Bytes)
deriving DecidableEq, Repr

namespace Files

def ofDict (files : Dict Bytes) : Files := ⟨files.map fun f ↦ (Path.parts f.1, f.2)⟩

/-- Whether there are files below a place. The working directory itself is always there. -/
def isDirectory (files : Files) (place : List String) : Bool :=
  place.isEmpty ||
    files.entries.any fun e ↦ place.length < e.1.length && place.isPrefixOf e.1

def read (files : Files) (path : String) : Option Bytes :=
  if Path.isAbsolute path || Path.endsInDirectory path then none
  else (Path.walk files.isDirectory [] (Path.parts path)).bind fun place ↦
    files.entries.lookup place

end Files

/-- The variables that a program runs with. -/
structure Environment where
  /-- The lines, each with a name, an equals sign and a value. -/
  lines : List (List Char)
deriving DecidableEq, Repr

namespace Environment

def ofDict (dict : Dict String) : Environment :=
  ⟨dict.map fun v ↦ v.1.toList ++ '=' :: v.2.toList⟩

/-- Whether a text can be looked up: it is not empty, and no zero character ends it early. -/
def isName (name : List Char) : Bool := !name.isEmpty && !name.contains '\x00'

def value? (e : Environment) (name : String) : Option String :=
  if isName name.toList then
    (e.lines.findSome? fun line ↦ (name.toList ++ ['=']).isPrefixOf? line).map String.ofList
  else none

example : (ofDict [("A", "B=c")]).value? "A" = some "B=c" := by decide +kernel
example : (ofDict [("A", "B=c")]).value? "A=B" = some "c" := by decide +kernel
example : (ofDict [("A", "B=c")]).value? "" = none := by decide +kernel

end Environment

def Host.ofDicts (files : Dict Bytes) (env : Dict String) : Host :=
  { file := (Files.ofDict files).read, env := (Environment.ofDict env).value? }

end AgentSession
