import AgentSession.Text.Cut
/-!
# Paths of files

A path is a text with slashes between its parts. Empty parts and parts that are a single dot lead
nowhere, except that a slash in front makes a path start at the root and a dot in front is kept.
-/

namespace AgentSession.Path

def isAbsolute (path : String) : Bool := path.toList.head? == some '/'

/-- Removes parts that lead nowhere from the end, given the parts last first, but keeps the first
part of the path. -/
def dropIdle : List (List Char) → List (List Char)
  | [] => []
  | [part] => [part]
  | part :: parts => if part = [] ∨ part = ['.'] then dropIdle parts else part :: parts

/-- The text of parts that are given last first. -/
def ofReversed (parts : List (List Char)) : String :=
  String.ofList (['/'].intercalate parts.reverse)

/-- The directory that a path lies in, if it has one. -/
def parent? (path : String) : Option String :=
  match dropIdle (Text.splitAll '/' path.toList).reverse with
  | [] | [[]] => none
  | _ :: parts =>
    match dropIdle parts with
    | [[]] => some (if isAbsolute path then "/" else "")
    | parts => some (ofReversed parts)

def join (directory path : String) : String :=
  if isAbsolute path ∨ directory = "" then path
  else if directory.toList.getLast? = some '/' then directory ++ path
  else directory ++ "/" ++ path

end AgentSession.Path
