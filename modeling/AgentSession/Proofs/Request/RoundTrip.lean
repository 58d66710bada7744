import AgentSession.Config.Basic
import AgentSession.Proofs.Config.Layers
import AgentSession.Proofs.Json.Reads
import AgentSession.Proofs.Message.RoundTrip
import AgentSession.Request.Wire
/-!
# Reading back requests and configurations

Messages, requests, results and configurations are read back strictly as they were written. What is
missing from an option is left out, as are the tool calls of a message that has none
(`Message.Omits`, `Config.Omits`), and is restored as missing. Each reader follows its writer field
by field, so this is shown where the parts are: a record is read back if its fields are.

The text of a value is read back as well. For this its numbers must be integers of 64 bits, and the
documents that it passes on may not be nested too deeply: `Json.depthLimit` levels are allowed in
all, of which a request takes one for itself and three for the parameters of a tool.

A message can also be read leniently. Both ways agree on every message that is regular.
-/

namespace AgentSession

open Reader (Reads)

/-! ## Messages -/

theorem FunctionCall.reads (f : FunctionCall) : Reads reader f.toJson f := by
  refine Reader.reads_record (by simp) fun r hr ↦ ?_
  rw [hr.required (by decide) rfl (Reader.reads_text f.name),
    hr.withDefault (by decide) "" rfl (Reader.reads_text f.arguments)]
  rfl

theorem ToolCall.reads (call : ToolCall) : Reads reader call.toJson call := by
  refine Reader.reads_record (by simp) fun r hr ↦ ?_
  rw [hr.required (by decide) rfl (Reader.reads_text call.id),
    hr.withDefault (by decide) defaultType rfl (Reader.reads_text call.callType),
    hr.required (by decide) rfl call.function.reads]
  rfl

theorem Role.reads (role : Role) : Reads reader role.toJson role :=
  Reader.reads_choice (Role.ofName?_name role)

theorem Message.reads (m : Message) : Reads reader m.toJson m := by
  rw [toJson_eq_object]
  refine Reader.reads_record m.nodup_members fun r hr ↦ ?_
  have hname : Dict.get? m.members "name" = m.name.map .str := by simp [members]
  have hcallId : Dict.get? m.members "toolCallId" = m.toolCallId.map .str := by simp [members]
  have hcalls : r.withDefault "toolCalls" [] (Reader.list ToolCall.reader) = some m.toolCalls := by
    by_cases hnil : m.toolCalls = []
    · rw [hnil]
      exact hr.withDefault_missing (by decide) [] _ (by simp [members, hnil])
    · exact hr.withDefault (by decide) [] (by simp [members, hnil])
        (Reader.reads_list fun call _ ↦ call.reads)
  rw [hr.required (by decide) rfl (Reader.reads_text m.id),
    hr.required (by decide) rfl m.role.reads,
    hr.withDefault (by decide) "" rfl (Reader.reads_text m.content),
    hr.optional_text (by decide) hname, hcalls, hr.optional_text (by decide) hcallId]
  rfl

/-- A document has the optional fields of a message, and has no member for one that is missing or
for tool calls of which there are none. -/
structure Message.Omits (m : Message) (doc : Json) : Prop where
  name : doc.member? "name" = m.name.map .str
  toolCalls : doc.member? "toolCalls" =
    if m.toolCalls = [] then none else some (.arr (m.toolCalls.map ToolCall.toJson))
  toolCallId : doc.member? "toolCallId" = m.toolCallId.map .str

theorem Message.omits_toJson (m : Message) : m.Omits m.toJson where
  name := by simp [members]
  toolCalls := by simp [members]
  toolCallId := by simp [members]

/-! ## Requests and results -/

theorem Tool.reads {t : Tool} (h : t.parameters.Ordered) : Reads reader t.toJson t := by
  refine Reader.reads_record (by simp) fun r hr ↦ ?_
  rw [hr.required (by decide) rfl (Reader.reads_text t.name),
    hr.withDefault (by decide) "" rfl (Reader.reads_text t.description),
    hr.withDefault (by decide) Json.empty rfl (Reader.reads_document h)]
  rfl

theorem ContextItem.reads (c : ContextItem) : Reads reader c.toJson c := by
  refine Reader.reads_record (by simp) fun r hr ↦ ?_
  rw [hr.required (by decide) rfl (Reader.reads_text c.description),
    hr.required (by decide) rfl (Reader.reads_text c.value)]
  rfl

theorem RunInput.reads {input : RunInput} (hstate : input.state.Ordered)
    (htools : ∀ t ∈ input.tools, t.parameters.Ordered) (hprops : input.forwardedProps.Ordered) :
    Reads reader input.toJson input := by
  refine Reader.reads_record (by simp) fun r hr ↦ ?_
  rw [hr.required (by decide) rfl (Reader.reads_text input.threadId),
    hr.required (by decide) rfl (Reader.reads_text input.runId),
    hr.withDefault (by decide) Json.null rfl (Reader.reads_document hstate),
    hr.withDefault (by decide) [] rfl (Reader.reads_list fun m _ ↦ m.reads),
    hr.withDefault (by decide) [] rfl (Reader.reads_list fun t ht ↦ Tool.reads (htools t ht)),
    hr.withDefault (by decide) [] rfl (Reader.reads_list fun c _ ↦ c.reads),
    hr.withDefault (by decide) Json.null rfl (Reader.reads_document hprops)]
  rfl

theorem RunResult.reads {result : RunResult} (hresult : result.result.Ordered)
    (hstate : result.newState.Ordered) : Reads reader result.toJson result := by
  refine Reader.reads_record (by simp) fun r hr ↦ ?_
  rw [hr.required (by decide) rfl (Reader.reads_text result.threadId),
    hr.required (by decide) rfl (Reader.reads_text result.runId),
    hr.required (by decide) rfl (Reader.reads_document hresult),
    hr.required (by decide) rfl (Reader.reads_list fun m _ ↦ m.reads),
    hr.required (by decide) rfl (Reader.reads_document hstate)]
  rfl

/-! ## Configurations -/

theorem HistorySettings.reads (h : HistorySettings) : Reads reader h.toJson h := by
  refine Reader.reads_record (by simp) fun r hr ↦ ?_
  rw [hr.withDefault (by decide) false rfl (Reader.reads_bool h.enabled),
    hr.withDefault (by decide) StateStore.defaultLimit rfl (Reader.reads_natural h.maxEntries)]
  rfl

theorem MalformedPolicy.reads (policy : MalformedPolicy) : Reads reader policy.toJson policy :=
  Reader.reads_choice (by cases policy <;> rfl)

namespace Config

/-- The settings of a configuration that are written. -/
def members (c : Config) : List (String × Json) :=
  member "url" .str c.url ++ member "agent_id" .str c.agentId ++
    member "headers" headersToJson c.headers ++ member "bearer_token" .str c.bearerToken ++
    member "timeout_ms" .nat c.timeoutMs ++
    member "malformed_payload" MalformedPolicy.toJson c.malformedPayload ++
    member "state_history" HistorySettings.toJson c.stateHistory ++
    member "log_level" .str c.logLevel

@[simp] theorem get?_member {α : Type} (key : String) (write : α → Json) (value : Option α)
    (name : String) :
    Dict.get? (member key write value) name = if key = name then value.map write else none := by
  cases value with
  | none => exact (ite_self none).symm
  | some a => rfl

theorem keys_member_sublist {α : Type} (key : String) (write : α → Json) (value : Option α) :
    ((member key write value).map (·.1)).Sublist [key] := by
  cases value with
  | none => exact List.nil_sublist _
  | some a => exact List.Sublist.refl _

theorem nodup_members (c : Config) : (c.members.map (·.1)).Nodup := by
  have hsublist : (c.members.map (·.1)).Sublist
      (["url"] ++ ["agent_id"] ++ ["headers"] ++ ["bearer_token"] ++ ["timeout_ms"] ++
        ["malformed_payload"] ++ ["state_history"] ++ ["log_level"]) := by
    simp only [members, List.map_append]
    exact (((((((keys_member_sublist _ _ _).append (keys_member_sublist _ _ _)).append
      (keys_member_sublist _ _ _)).append (keys_member_sublist _ _ _)).append
      (keys_member_sublist _ _ _)).append (keys_member_sublist _ _ _)).append
      (keys_member_sublist _ _ _)).append (keys_member_sublist _ _ _)
  exact hsublist.nodup (by decide)

theorem member?_toJson (c : Config) (key : String) :
    c.toJson.member? key = Dict.get? c.members key :=
  Json.member?_object c.nodup_members key

/-- A document has the settings of a configuration, and has no member for one that is left out. -/
structure Omits (c : Config) (doc : Json) : Prop where
  url : doc.member? "url" = c.url.map .str
  agentId : doc.member? "agent_id" = c.agentId.map .str
  headers : doc.member? "headers" = c.headers.map headersToJson
  bearerToken : doc.member? "bearer_token" = c.bearerToken.map .str
  timeoutMs : doc.member? "timeout_ms" = c.timeoutMs.map .nat
  malformedPayload :
    doc.member? "malformed_payload" = c.malformedPayload.map MalformedPolicy.toJson
  stateHistory : doc.member? "state_history" = c.stateHistory.map HistorySettings.toJson
  logLevel : doc.member? "log_level" = c.logLevel.map .str

theorem omits_toJson (c : Config) : c.Omits c.toJson := by
  constructor <;> simp [member?_toJson, members]

theorem reads_headers {headers : Dict String} (h : headers.Sorted) :
    Reads (Reader.dict Reader.text) (headersToJson headers) headers :=
  Reader.reads_dict h fun entry _ ↦ Reader.reads_text entry.2

theorem reads {c : Config} (h : c.Ordered) : Reads reader c.toJson c := by
  refine Reader.reads_record c.nodup_members fun r hr ↦ ?_
  have homits := c.omits_toJson
  have hmember {key : String} {value? : Option Json} (hdoc : c.toJson.member? key = value?) :
      Dict.get? c.members key = value? := (c.member?_toJson key).symm.trans hdoc
  rw [hr.optional_text (by decide) (hmember homits.url),
    hr.optional_text (by decide) (hmember homits.agentId),
    hr.optional (by decide) (hmember homits.headers) (fun d hd ↦ reads_headers (h d hd)) nofun,
    hr.optional_text (by decide) (hmember homits.bearerToken),
    hr.optional (by decide) (hmember homits.timeoutMs) (fun n _ ↦ Reader.reads_natural n) nofun,
    hr.optional (by decide) (hmember homits.malformedPayload) (fun p _ ↦ p.reads) nofun,
    hr.optional (by decide) (hmember homits.stateHistory) (fun s _ ↦ s.reads) nofun,
    hr.optional_text (by decide) (hmember homits.logLevel)]
  rfl

end Config

/-! ## Documents that are read back -/

theorem Json.readable_optionalMember (key : String) (value : Option String) (depth : Nat) :
    ∀ member ∈ optionalMember key value, member.2.Readable depth := by
  cases value with
  | none => exact List.forall_mem_nil _
  | some s => exact List.forall_mem_singleton.2 (readable_str s depth)

theorem FunctionCall.readable (f : FunctionCall) (depth : Nat) : f.toJson.Readable (depth + 1) := by
  refine .object ?_
  simp only [List.forall_mem_cons]
  exact ⟨Json.readable_str _ _, Json.readable_str _ _, List.forall_mem_nil _⟩

theorem ToolCall.readable (call : ToolCall) (depth : Nat) : call.toJson.Readable (depth + 2) := by
  refine .object ?_
  simp only [List.forall_mem_cons]
  exact ⟨Json.readable_str _ _, Json.readable_str _ _, call.function.readable depth,
    List.forall_mem_nil _⟩

theorem Message.readable_callsMember (calls : List ToolCall) (depth : Nat) :
    ∀ member ∈ callsMember calls, member.2.Readable (depth + 3) := by
  rw [callsMember]
  split
  · exact List.forall_mem_nil _
  · refine List.forall_mem_singleton.2 (.arr (List.forall_mem_map.2 fun call _ ↦ ?_))
    exact call.readable depth

theorem Message.readable (m : Message) (depth : Nat) : m.toJson.Readable (depth + 4) := by
  rw [toJson_eq_object]
  refine .object ?_
  simp only [members, List.forall_mem_append, List.forall_mem_cons]
  exact ⟨⟨⟨⟨Json.readable_str _ _, Json.readable_str _ _, Json.readable_str _ _,
    List.forall_mem_nil _⟩, Json.readable_optionalMember _ _ _⟩, readable_callsMember _ _⟩,
    Json.readable_optionalMember _ _ _⟩

theorem Message.readable_listToJson (ms : List Message) (depth : Nat) :
    (listToJson ms).Readable (depth + 5) :=
  .arr (List.forall_mem_map.2 fun m _ ↦ m.readable depth)

theorem Tool.readable {t : Tool} {depth : Nat} (h : t.parameters.Readable depth) :
    t.toJson.Readable (depth + 1) := by
  refine .object ?_
  simp only [List.forall_mem_cons]
  exact ⟨Json.readable_str _ _, Json.readable_str _ _, h, List.forall_mem_nil _⟩

theorem ContextItem.readable (c : ContextItem) (depth : Nat) : c.toJson.Readable (depth + 1) := by
  refine .object ?_
  simp only [List.forall_mem_cons]
  exact ⟨Json.readable_str _ _, Json.readable_str _ _, List.forall_mem_nil _⟩

theorem RunInput.readable {input : RunInput} (depth : Nat)
    (hstate : input.state.Readable (depth + 5))
    (htools : ∀ t ∈ input.tools, t.parameters.Readable (depth + 3))
    (hprops : input.forwardedProps.Readable (depth + 5)) :
    input.toJson.Readable (depth + 6) := by
  refine .object ?_
  simp only [List.forall_mem_cons]
  exact ⟨Json.readable_str _ _, Json.readable_str _ _, hstate,
    Message.readable_listToJson input.messages depth,
    .arr (List.forall_mem_map.2 fun t ht ↦ Tool.readable (htools t ht)),
    .arr (List.forall_mem_map.2 fun c _ ↦ c.readable (depth + 3)), hprops,
    List.forall_mem_nil _⟩

theorem RunResult.readable {result : RunResult} (depth : Nat)
    (hresult : result.result.Readable (depth + 5))
    (hstate : result.newState.Readable (depth + 5)) : result.toJson.Readable (depth + 6) := by
  refine .object ?_
  simp only [List.forall_mem_cons]
  exact ⟨Json.readable_str _ _, Json.readable_str _ _, hresult,
    Message.readable_listToJson result.newMessages depth, hstate,
    List.forall_mem_nil _⟩

theorem HistorySettings.readable {h : HistorySettings} (hmax : h.maxEntries < Literal.wordBound)
    (depth : Nat) : h.toJson.Readable (depth + 1) := by
  refine .object ?_
  simp only [List.forall_mem_cons]
  exact ⟨Json.readable_bool _ _, Json.readable_nat hmax _, List.forall_mem_nil _⟩

namespace Config

/-- A configuration as it can be: its headers are in order, and its numbers fit in 64 bits. -/
structure Possible (c : Config) : Prop where
  ordered : c.Ordered
  timeoutMs : ∀ limit, c.timeoutMs = some limit → limit < Literal.wordBound
  maxEntries : ∀ settings, c.stateHistory = some settings →
    settings.maxEntries < Literal.wordBound

theorem readable_member {α : Type} {write : α → Json} {value : Option α} {depth : Nat}
    (h : ∀ a, value = some a → (write a).Readable depth) (key : String) :
    ∀ entry ∈ member key write value, entry.2.Readable depth := by
  cases value with
  | none => exact List.forall_mem_nil _
  | some a => exact List.forall_mem_singleton.2 (h a rfl)

theorem readable_headersToJson {headers : Dict String} (h : headers.Sorted) (depth : Nat) :
    (headersToJson headers).Readable (depth + 1) := by
  refine .obj ?_ (List.forall_mem_map.2 fun entry _ ↦ Json.readable_str entry.2 depth)
  exact List.pairwise_map.2 h

theorem Possible.readable {c : Config} (h : c.Possible) (depth : Nat) :
    c.toJson.Readable (depth + 2) := by
  refine .object ?_
  simp only [List.forall_mem_append]
  exact ⟨⟨⟨⟨⟨⟨⟨readable_member (fun s _ ↦ Json.readable_str s _) _,
    readable_member (fun s _ ↦ Json.readable_str s _) _⟩,
    readable_member (fun d hd ↦ readable_headersToJson (h.ordered d hd) depth) _⟩,
    readable_member (fun s _ ↦ Json.readable_str s _) _⟩,
    readable_member (fun limit hlimit ↦ Json.readable_nat (h.timeoutMs limit hlimit) _) _⟩,
    readable_member (fun p _ ↦ Json.readable_str p.name _) _⟩,
    readable_member (fun s hs ↦ HistorySettings.readable (h.maxEntries s hs) depth) _⟩,
    readable_member (fun s _ ↦ Json.readable_str s _) _⟩

end Config

/-! ## Reading back from a text -/

open Reader (ReadsBack)

namespace Message

theorem readsBack (m : Message) : ReadsBack reader m.toJson m :=
  m.reads.readsBack (m.readable 123)

/-- What is read leniently from a text of a message. -/
theorem map_ofJson_parse (freshId : String) {m : Message} {w : Written} (h : w.Spells m.toJson) :
    (Json.parse (.ofList w.render)).map (ofJson freshId) = some (m.reread freshId) := by
  have hdoc : m.toJson.Readable Json.depthLimit := m.readable 123
  have hread := (Reader.reads_document hdoc.ordered).readsBack hdoc
  have hparse : Json.parse (.ofList w.render) = some m.toJson := by
    rw [Json.parse, String.toList_ofList]
    exact hread.text w h
  rw [hparse, Option.map_some, ofJson_toJson]

end Message

/-- Every value is read back as it was written, and messages that are regular by the lenient reader
too. -/
theorem readsBack_wire (freshId : String) :
    (∀ m : Message, ReadsBack Message.reader m.toJson m ∧ m.Omits m.toJson) ∧
    (∀ m : Message, m.Regular → Message.ofJson freshId m.toJson = m ∧
      ∀ w : Written, w.Spells m.toJson →
        (Json.parse (.ofList w.render)).map (Message.ofJson freshId) =
          Message.reader.run w.render) ∧
    (∀ call : ToolCall, ReadsBack ToolCall.reader call.toJson call) ∧
    (∀ t : Tool, t.parameters.Readable (Json.depthLimit - 1) →
      ReadsBack Tool.reader t.toJson t) ∧
    (∀ c : ContextItem, ReadsBack ContextItem.reader c.toJson c) ∧
    (∀ input : RunInput, input.state.Readable (Json.depthLimit - 1) →
      (∀ t ∈ input.tools, t.parameters.Readable (Json.depthLimit - 3)) →
      input.forwardedProps.Readable (Json.depthLimit - 1) →
      ReadsBack RunInput.reader input.toJson input) ∧
    (∀ result : RunResult, result.result.Readable (Json.depthLimit - 1) →
      result.newState.Readable (Json.depthLimit - 1) →
      ReadsBack RunResult.reader result.toJson result) ∧
    (∀ settings : HistorySettings, settings.maxEntries < Literal.wordBound →
      ReadsBack HistorySettings.reader settings.toJson settings) ∧
    ∀ c : Config, c.Possible → ReadsBack Config.reader c.toJson c ∧ c.Omits c.toJson := by
  -- the numbers are the levels that are left of `Json.depthLimit` below those of the value itself
  refine ⟨fun m ↦ ⟨m.readsBack, m.omits_toJson⟩, fun m hm ↦ ⟨?_, fun w hw ↦ ?_⟩,
    fun call ↦ call.reads.readsBack (call.readable 125),
    fun t ht ↦ (Tool.reads ht.ordered).readsBack (Tool.readable ht),
    fun c ↦ c.reads.readsBack (c.readable 126), fun input hstate htools hprops ↦ ?_,
    fun result hresult hstate ↦ ?_,
    fun settings hmax ↦ settings.reads.readsBack (HistorySettings.readable hmax 126),
    fun c hc ↦ ⟨(Config.reads hc.ordered).readsBack (hc.readable 125), c.omits_toJson⟩⟩
  · rw [Message.ofJson_toJson, hm.reread_eq]
  · rw [Message.map_ofJson_parse freshId hw, hm.reread_eq, m.readsBack.text w hw]
  · have hreads := RunInput.reads hstate.ordered (fun t ht ↦ (htools t ht).ordered) hprops.ordered
    exact hreads.readsBack (RunInput.readable 121 hstate htools hprops)
  · have hreads := RunResult.reads hresult.ordered hstate.ordered
    exact hreads.readsBack (RunResult.readable 121 hresult hstate)

/-- A request with the result of a tool call and with a tool, its result, and a configuration that
names neither an endpoint nor an agent. -/
theorem readsBack_wire_add :
    let message : Message := { id := "m", role := .tool, content := "4", toolCallId := some "c" }
    let tool : Tool := { name := "add", parameters := .obj [("type", .str "object")] }
    let input : RunInput :=
      { threadId := "t", runId := "r", state := .nat 7, messages := [message], tools := [tool],
        forwardedProps := .null }
    let result : RunResult :=
      { threadId := "t", runId := "r", result := .nat 4, newMessages := [message],
        newState := .null }
    let config : Config :=
      { headers := some [("A", "1"), ("B", "2")], timeoutMs := some 5,
        stateHistory := some { maxEntries := 9 } }
    ReadsBack Tool.reader tool.toJson tool ∧
      RunInput.reader.run input.toJson.compact.toList = some input ∧
      RunResult.reader.run result.toJson.compact.toList = some result ∧
      ReadsBack HistorySettings.reader (HistorySettings.toJson {}) {} ∧
      Config.reader.run config.toJson.compact.toList = some config ∧
      config.toJson.member? "url" = none ∧ message.toJson.member? "toolCalls" = none ∧
      Message.ofJson "f" message.toJson = message ∧
      (Json.parse (.ofList (Written.ofJson message.toJson).render)).map (Message.ofJson "f") =
        Message.reader.run (Written.ofJson message.toJson).render := by
  intro message tool input result config
  obtain ⟨hmessage, hregular, -, htool, -, hinput, hresult, hsettings, hconfig⟩ :=
    readsBack_wire "f"
  have hparameters (depth : Nat) : tool.parameters.Readable (depth + 1) :=
    .obj (by decide) (List.forall_mem_singleton.2 (Json.readable_str _ _))
  have hpossible : config.Possible :=
    ⟨fun _ h ↦ Option.some.inj h ▸ by decide, fun _ h ↦ Option.some.inj h ▸ by decide,
      fun _ h ↦ Option.some.inj h ▸ by decide⟩
  have hreads : ReadsBack RunInput.reader input.toJson input :=
    hinput input (Json.readable_nat (by decide) _)
      (List.forall_mem_singleton.2 (hparameters 123)) ⟨trivial, trivial, Nat.zero_le _⟩
  have hends : ReadsBack RunResult.reader result.toJson result :=
    hresult result (Json.readable_nat (by decide) _) ⟨trivial, trivial, Nat.zero_le _⟩
  obtain ⟨hlenient, hagree⟩ := hregular message ⟨by decide, nofun, by decide⟩
  exact ⟨htool tool (hparameters 125), hreads.compact, hends.compact, hsettings {} (by decide),
    (hconfig config hpossible).1.compact, (hconfig config hpossible).2.url,
    (hmessage message).2.toolCalls, hlenient, hagree _ (Written.spells_ofJson _)⟩

end AgentSession
