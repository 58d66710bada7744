import AgentSession.Text.Cut
/-!
# Lines of an event stream

An event stream is made of lines. A blank line ends an event. Any other line is a field: a name,
and after the first colon a value, less one space in front. Only the field `data` carries
anything; lines with another name, those that start with a colon among them, are passed over.
-/

namespace AgentSession

/-- What a line of an event stream means. -/
inductive Line where
  | blank
  | data (value : List Char)
  | ignored
deriving DecidableEq, Repr

namespace Line

def dataField : List Char := ['d', 'a', 't', 'a']

/-- A value without one space in front. -/
def dropSpace : List Char → List Char
  | ' ' :: value => value
  | value => value

/-- The meaning of a line, given without its end. -/
def read (text : List Char) : Line :=
  match text with
  | [] => .blank
  | text =>
    match Text.splitFirst ':' text with
    | some (name, value) => if name = dataField then .data (dropSpace value) else .ignored
    | none => if text = dataField then .data [] else .ignored

example : read ['d', 'a', 't', 'a', ':', ' ', ' ', 'x'] = .data [' ', 'x'] := by decide
example : read [':', 'd', 'a', 't', 'a'] = .ignored := by decide

end Line

end AgentSession
