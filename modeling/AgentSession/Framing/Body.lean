import AgentSession.Framing.Pieces
import AgentSession.Json.Printer
/-!
# Bodies of event streams

A body is written from parts, each of which is a few lines. An event takes a data line for its
document, or several for a text that is given line by line, and a blank line. Everything else is a
single line: a comment, or a line that is given as it stands.
-/

namespace AgentSession

/-- A part of the body of an event stream. -/
inductive BodyPart where
  /-- An event whose payload is the compact text of a document. -/
  | event (doc : Json)
  /-- An event whose payload is given line by line. -/
  | lines (payload : List String)
  | comment (text : String)
  /-- A line as it stands. -/
  | raw (line : String)
deriving DecidableEq, Repr

def BodyPart.render : BodyPart → List String
  | .event doc => [s!"data: {doc.compact}", ""]
  | .lines payload => payload.map (fun line ↦ s!"data: {line}") ++ [""]
  | .comment text => [s!": {text}"]
  | .raw line => [line]

structure Body where
  parts : List BodyPart
  /-- Whether a carriage return stands before the line feed at the end of a line. -/
  carriageReturns : Bool := false
deriving DecidableEq, Repr

namespace Body

def lineEnd (b : Body) : String := if b.carriageReturns then "\r\n" else "\n"

def text (b : Body) : String :=
  String.join ((b.parts.flatMap BodyPart.render).map (· ++ b.lineEnd))

def bytes (b : Body) : Bytes := Utf8.encode b.text.toList

def pieces (b : Body) (size : Nat) : List Bytes := b.bytes.cut size

end Body

end AgentSession
