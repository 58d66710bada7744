import AgentSession.Json.Basic
/-!
# Lenient access to fields

A field of a wire document may be known by several names. Each look-up takes the accepted names in
order of preference and passes over a name whose value has the wrong type, as if it were missing.
-/

namespace AgentSession.Json

/-- The first of the named members that `read` accepts. -/
def first? {α : Type} (read : Json → Option α) (names : List String) (doc : Json) : Option α :=
  names.findSome? fun name ↦ (doc.member? name).bind read

def textField? (names : List String) (doc : Json) : Option String :=
  doc.first? text? names

/-- The first text under one of the names, or the empty text. -/
def textField (names : List String) (doc : Json) : String :=
  (doc.textField? names).getD ""

/-- The first text under one of the names, unless it is empty. -/
def nonemptyField? (names : List String) (doc : Json) : Option String :=
  (doc.textField? names).filter fun s ↦ s ≠ ""

/-- The first document other than `null` under one of the names, or `null`. -/
def valueField (names : List String) (doc : Json) : Json :=
  (doc.first? (fun v ↦ if v.isNull then none else some v) names).getD .null

/-- The first sequence under one of the names, or the empty sequence. -/
def itemsField (names : List String) (doc : Json) : List Json :=
  (doc.first? items? names).getD []

end AgentSession.Json
