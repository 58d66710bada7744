import AgentSession.Proofs.Json.Field
/-!
# Reading back messages

A tool call is read back as it was written. A message is read back as it was written but for three
things: an empty identifier, an empty name and an empty tool call identifier are not told from
missing ones (`Message.ofJson_toJson`). A message that has none of them is `Message.Regular`, and
every message that was read is.
-/

namespace AgentSession

/-- The names that are read are those that are written. -/
theorem Role.ofName?_eq_some_iff {s : String} {role : Role} :
    ofName? s = some role ↔ s = role.name := by
  constructor
  · intro h
    unfold ofName? at h
    split at h <;> cases h <;> rfl
  · rintro rfl
    cases role <;> rfl

theorem Role.ofName?_name (role : Role) : ofName? role.name = some role :=
  ofName?_eq_some_iff.2 rfl

theorem ToolCall.ofJson_toJson (call : ToolCall) : ToolCall.ofJson call.toJson = call := by
  obtain ⟨id, callType, ⟨name, arguments⟩⟩ := call
  have hfunction (key : String) : Json.member? key (FunctionCall.toJson ⟨name, arguments⟩) =
      Dict.get? [("name", .str name), ("arguments", .str arguments)] key :=
    Json.member?_object (by simp) key
  have hcall (key : String) : Json.member? key (ToolCall.toJson ⟨id, callType, ⟨name, arguments⟩⟩) =
      Dict.get? [("id", .str id), ("type", .str callType),
        ("function", FunctionCall.toJson ⟨name, arguments⟩)] key :=
    Json.member?_object (by simp) key
  simp [ToolCall.ofJson, Json.textField, Json.textField?, hcall, hfunction, Json.text?]

namespace Message

/-- What a message is read back as. -/
def reread (freshId : String) (m : Message) : Message :=
  { m with
    id := if m.id = "" then freshId else m.id
    name := m.name.filter (· ≠ "")
    toolCallId := m.toolCallId.filter (· ≠ "") }

/-- The member that written tool calls make up, if there are any. -/
def callsMember (calls : List ToolCall) : List (String × Json) :=
  if calls = [] then [] else [("toolCalls", .arr (calls.map ToolCall.toJson))]

@[simp] theorem get?_callsMember (calls : List ToolCall) (key : String) :
    Dict.get? (callsMember calls) key =
      if key = "toolCalls" ∧ calls ≠ [] then some (.arr (calls.map ToolCall.toJson)) else none := by
  unfold callsMember
  by_cases hcalls : calls = []
  · simp [hcalls]
  · simp [hcalls, eq_comm]

/-- The members of a written message. -/
def members (m : Message) : List (String × Json) :=
  [("id", .str m.id), ("role", m.role.toJson), ("content", .str m.content)] ++
    Json.optionalMember "name" m.name ++ callsMember m.toolCalls ++
    Json.optionalMember "toolCallId" m.toolCallId

theorem toJson_eq_object (m : Message) : m.toJson = .object m.members := by
  unfold toJson members callsMember
  cases m.toolCalls <;> rfl

theorem nodup_members (m : Message) : (m.members.map (·.1)).Nodup := by
  have hcalls : ((callsMember m.toolCalls).map (·.1)).Sublist ["toolCalls"] := by
    unfold callsMember
    split
    · exact List.nil_sublist _
    · exact List.Sublist.refl _
  have hsublist : (m.members.map (·.1)).Sublist
      (["id", "role", "content"] ++ ["name"] ++ ["toolCalls"] ++ ["toolCallId"]) := by
    simp only [members, List.map_append]
    exact (((List.Sublist.refl _).append (Json.keys_optionalMember_sublist _ _)).append
      hcalls).append (Json.keys_optionalMember_sublist _ _)
  exact hsublist.nodup (by decide)

@[simp] theorem member?_toJson (m : Message) (key : String) :
    m.toJson.member? key = Dict.get? m.members key := by
  rw [toJson_eq_object, Json.member?_object m.nodup_members]

/-- What a written message is read back as. -/
theorem ofJson_toJson (freshId : String) (m : Message) :
    ofJson freshId m.toJson = m.reread freshId := by
  have hid : m.toJson.textField? ["id"] = some m.id := by
    simp [Json.textField?, members, Json.text?]
  have hrole : m.toJson.textField? ["role"] = some m.role.name := by
    simp [Json.textField?, members, Json.text?, Role.toJson]
  have hcontent : m.toJson.textField? ["content"] = some m.content := by
    simp [Json.textField?, members, Json.text?]
  have hname : m.toJson.textField? ["name"] = m.name := by
    simp [Json.textField?, members]
  have hcalls : m.toJson.itemsField ["toolCalls", "tool_calls"] =
      m.toolCalls.map ToolCall.toJson := by
    by_cases hnil : m.toolCalls = []
    · simp [Json.itemsField, members, hnil]
    · simp [Json.itemsField, members, hnil, Json.items?]
  have htoolCallId : m.toJson.textField? ["toolCallId", "tool_call_id"] = m.toolCallId := by
    simp [Json.textField?, members]
  have hread : (m.toolCalls.map ToolCall.toJson).map ToolCall.ofJson = m.toolCalls := by
    rw [List.map_map]
    exact List.map_id'' ToolCall.ofJson_toJson _
  have hkept : ((some m.id).filter (· ≠ "")).getD freshId =
      if m.id = "" then freshId else m.id := by
    by_cases h : m.id = ""
    · rw [if_pos h, Option.filter_some_neg (by simp [h]), Option.getD_none]
    · rw [if_neg h, Option.filter_some_pos (by simp [h]), Option.getD_some]
  simp only [ofJson, reread, Json.nonemptyField?, Json.textField, hid, hrole, hcontent, hname,
    hcalls, htoolCallId, hread, hkept, Option.bind_some, Role.ofName?_name, Option.getD_some]

/-! ## Regular messages -/

/-- A message that is not mistaken for one of which something is missing. -/
structure Regular (m : Message) : Prop where
  id : m.id ≠ ""
  name : m.name ≠ some ""
  toolCallId : m.toolCallId ≠ some ""

theorem Regular.reread_eq {m : Message} (h : m.Regular) (freshId : String) :
    m.reread freshId = m := by
  simp only [reread, if_neg h.id, Json.filter_nonempty h.name, Json.filter_nonempty h.toolCallId]

/-- A message that was read is regular, if fresh identifiers are not empty. -/
theorem regular_ofJson {freshId : String} (h : freshId ≠ "") (doc : Json) :
    (ofJson freshId doc).Regular where
  id := by
    have hfield := doc.nonemptyField?_ne_some_empty ["id"]
    rw [ofJson]
    cases hid : doc.nonemptyField? ["id"] with
    | none => exact h
    | some id =>
      intro hempty
      exact hfield (hid.trans (congrArg some hempty))
  name := Json.nonemptyField?_ne_some_empty _ _
  toolCallId := Json.nonemptyField?_ne_some_empty _ _

theorem listOfJson_map_toJson (freshId : Nat → String) {ms : List Message}
    (h : ∀ m ∈ ms, m.Regular) : listOfJson freshId (ms.map toJson) = ms := by
  refine List.ext_getElem (by simp [listOfJson]) fun i hi hi' ↦ ?_
  simp only [listOfJson, List.getElem_mapIdx, List.getElem_map, ofJson_toJson]
  exact (h _ (List.getElem_mem hi')).reread_eq _

theorem regular_listOfJson {freshId : Nat → String} (h : ∀ n, freshId n ≠ "") (docs : List Json) :
    ∀ m ∈ listOfJson freshId docs, m.Regular := by
  intro m hm
  obtain ⟨i, hi, rfl⟩ := List.mem_mapIdx.1 hm
  exact regular_ofJson (h i) _

end Message

end AgentSession
