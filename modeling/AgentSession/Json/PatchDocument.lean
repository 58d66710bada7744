import AgentSession.Json.Patch
/-!
# Patches as documents

A patch is written as an array of objects. Each names its operation under `op` and its place under
`path`; some hold a document under `value`, others a second place under `from`. The parts are
looked at in this order, so an operation with several faults is refused for the first of them, but
an unknown name is noticed only after the place.
-/

namespace AgentSession

/-- Why a document is no patch. -/
inductive PatchSyntaxError where
  | notSequence
  | notObject
  /-- A text is missing under a key. -/
  | noText (key : String)
  | pointer (error : PointerError)
  /-- An operation with the given name has no document. -/
  | noValue (op : String)
  | unknown (op : String)
deriving DecidableEq, Repr

def PatchSyntaxError.message : PatchSyntaxError → String
  | .notSequence => "patch must be an array of operations"
  | .notObject => "patch operation must be an object"
  | .noText key => s!"patch operation has no \"{key}\""
  | .pointer error => error.message
  | .noValue op => s!"\"{op}\" requires a value"
  | .unknown op => s!"unknown patch operation: {op}"

namespace PatchOp

def textAt (members : Dict Json) (key : String) : Except PatchSyntaxError String :=
  match (Dict.get? members key).bind Json.text? with
  | some s => .ok s
  | none => .error (.noText key)

def pointerAt (members : Dict Json) (key : String) : Except PatchSyntaxError Pointer := do
  let text ← textAt members key
  match Pointer.parse text with
  | .ok p => .ok p
  | .error e => .error (.pointer e)

def valueAt (members : Dict Json) (op : String) : Except PatchSyntaxError Json :=
  match Dict.get? members "value" with
  | some v => .ok v
  | none => .error (.noValue op)

def ofJson : Json → Except PatchSyntaxError PatchOp
  | .obj members => do
    let op ← textAt members "op"
    let path ← pointerAt members "path"
    match op with
    | "add" => return .add path (← valueAt members op)
    | "remove" => return .remove path
    | "replace" => return .replace path (← valueAt members op)
    | "move" => return .move (← pointerAt members "from") path
    | "copy" => return .copy (← pointerAt members "from") path
    | "test" => return .test path (← valueAt members op)
    | _ => .error (.unknown op)
  | _ => .error .notObject

def toJson (op : PatchOp) : Json :=
  let named (path : Pointer) (more : List (String × Json)) : Json :=
    .object (("op", .str op.name) :: ("path", .str path.render) :: more)
  match op with
  | .add path value | .replace path value | .test path value => named path [("value", value)]
  | .remove path => named path []
  | .move source path | .copy source path => named path [("from", .str source.render)]

end PatchOp

namespace Patch

def ofJson : Json → Except PatchSyntaxError (List PatchOp)
  | .arr items => items.mapM PatchOp.ofJson
  | _ => .error .notSequence

def toJson (ops : List PatchOp) : Json := .arr (ops.map PatchOp.toJson)

end Patch

end AgentSession
