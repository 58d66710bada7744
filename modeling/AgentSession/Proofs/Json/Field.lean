import AgentSession.Json.Field
import AgentSession.Message.Wire
import AgentSession.Proofs.Dict
/-!
# Fields of written documents

A document that is written as an object with members has these members, if no name occurs among
them twice (`Json.member?_object`). Then each lenient look-up is one case split after the other: on
the members that are written, and on the names that are tried.
-/

namespace AgentSession.Json

theorem member?_object {members : List (String × Json)} (h : (members.map (·.1)).Nodup)
    (key : String) : (object members).member? key = Dict.get? members key :=
  Dict.get?_ofList h key

/-! ## Trying names -/

section Names

variable {α : Type} (read : Json → Option α) (doc : Json)

@[simp] theorem first?_nil : doc.first? read [] = none := rfl

@[simp] theorem first?_cons (name : String) (names : List String) :
    doc.first? read (name :: names) =
      ((doc.member? name).bind read).or (doc.first? read names) := by
  rw [first?, List.findSome?_cons]
  cases (doc.member? name).bind read with
  | none => rfl
  | some a => rfl

end Names

/-! ## Optional members -/

@[simp] theorem get?_optionalMember (key : String) (value : Option String) (other : String) :
    Dict.get? (optionalMember key value) other =
      if key = other then value.map Json.str else none := by
  cases value with
  | none => exact (ite_self none).symm
  | some s => rfl

@[simp] theorem bind_text?_map_str (value : Option String) :
    (value.map Json.str).bind text? = value := by
  cases value <;> rfl

theorem keys_optionalMember_sublist (key : String) (value : Option String) :
    ((optionalMember key value).map (·.1)).Sublist [key] := by
  cases value with
  | none => exact List.nil_sublist _
  | some s => exact List.Sublist.refl _

/-! ## Documents that may be `null` -/

@[simp] theorem getD_null_eq_self (doc : Json) :
    (if doc.isNull then none else some doc).getD .null = doc := by
  cases doc <;> rfl

/-! ## Texts that may not be empty -/

theorem filter_nonempty {value : Option String} (h : value ≠ some "") :
    value.filter (· ≠ "") = value := by
  cases value with
  | none => rfl
  | some s =>
    have hs : s ≠ "" := fun hs ↦ h (congrArg some hs)
    exact Option.filter_some_pos (decide_eq_true hs)

theorem nonemptyField?_eq_of_textField?_eq {names : List String} {doc : Json}
    {value : Option String} (h : doc.textField? names = value) (hvalue : value ≠ some "") :
    doc.nonemptyField? names = value := by
  rw [nonemptyField?, h, filter_nonempty hvalue]

theorem nonemptyField?_ne_some_empty (names : List String) (doc : Json) :
    doc.nonemptyField? names ≠ some "" := by
  intro h
  obtain ⟨-, hne⟩ := Option.filter_eq_some_iff.1 h
  simp at hne

end AgentSession.Json
