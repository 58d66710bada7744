import AgentSession.Event.Wire
import AgentSession.Proofs.Message.RoundTrip
/-!
# Reading back events

An event that is written is read back as what it was, up to the document that it remembers. It may
be any event that is `EventKind.Regular`: a text that is written only if there is one must not be
empty, because an empty one is read as if it were missing.

Every event that was read from a document is regular (`Event.regular_of_ofJson`), whatever names the
document has for its fields and whatever it lacks, and has a time that a document may tell. So it
survives being written and read as often as one likes.
-/

namespace AgentSession

theorem EventType.ofName?_name (type : EventType) : EventType.ofName? type.name = some type := by
  cases type <;> rfl

namespace EventKind

attribute [simp] messageIdNames toolCallIdNames toolCallNameNames parentMessageIdNames
  threadIdNames runIdNames stepIdNames deltaNames argumentsNames toolResultNames patchNames
  errorMessageNames customNameNames customDataNames

/-- What is not mistaken for something of which a part is missing. -/
def Regular : EventKind → Prop
  | .toolCallStart _ _ parentMessageId => parentMessageId ≠ some ""
  | .toolCallChunk _ _ parentMessageId _ => parentMessageId ≠ some ""
  | .toolCallResult messageId _ _ => messageId ≠ some ""
  | .messagesSnapshot messages => ∀ m ∈ messages, m.Regular
  | _ => True

end EventKind

namespace Event

/-- The members of a written event. -/
def members (e : Event) : List (String × Json) :=
  ("type", .str e.type.name) :: ("timestamp", .int e.timestamp) :: e.kind.fields

theorem nodup_members (e : Event) : (e.members.map (·.1)).Nodup := by
  obtain ⟨kind, timestamp, source⟩ := e
  -- which members there are depends on which optional parts there are
  cases kind with
  | textMessageChunk messageId role delta =>
    cases role <;> simp [members, EventKind.fields, Json.optionalMember]
  | toolCallStart toolCallId toolCallName parentMessageId =>
    cases parentMessageId <;> simp [members, EventKind.fields, Json.optionalMember]
  | toolCallChunk toolCallId toolCallName parentMessageId delta =>
    cases toolCallName <;> cases parentMessageId <;>
      simp [members, EventKind.fields, Json.optionalMember]
  | toolCallResult messageId toolCallId result =>
    cases messageId <;> simp [members, EventKind.fields, Json.optionalMember]
  | thinkingStart title => cases title <;> simp [members, EventKind.fields, Json.optionalMember]
  | runError message code => cases code <;> simp [members, EventKind.fields, Json.optionalMember]
  | raw data source => cases source <;> simp [members, EventKind.fields, Json.optionalMember]
  | _ => simp [members, EventKind.fields]

@[simp] theorem member?_toJson (e : Event) (key : String) :
    e.toJson.member? key = Dict.get? e.members key :=
  Json.member?_object e.nodup_members key

theorem read_toJson (freshId : Nat → String) (e : Event) (h : e.kind.Regular) :
    EventKind.read freshId e.type e.toJson = e.kind := by
  obtain ⟨kind, timestamp, source⟩ := e
  cases kind with
  | textMessageChunk messageId role delta =>
    cases role <;>
      simp [EventKind.read, EventKind.type, type, Json.textField, Json.textField?, Json.text?,
        members, EventKind.fields, EventKind.roleField?, Role.ofName?_name]
  | toolCallStart toolCallId toolCallName parentMessageId =>
    -- what is written is found, and passes the filter because it is not empty
    have hparent : Json.textField? EventKind.parentMessageIdNames
        (toJson ⟨.toolCallStart toolCallId toolCallName parentMessageId, timestamp, source⟩) =
          parentMessageId := by
      simp [Json.textField?, members, EventKind.fields]
    simp only [type, EventKind.type, EventKind.read,
      Json.nonemptyField?_eq_of_textField?_eq hparent h]
    simp [Json.textField, Json.textField?, Json.text?, members, EventKind.fields]
  | toolCallChunk toolCallId toolCallName parentMessageId delta =>
    have hparent : Json.textField? EventKind.parentMessageIdNames
        (toJson ⟨.toolCallChunk toolCallId toolCallName parentMessageId delta, timestamp, source⟩) =
          parentMessageId := by
      simp [Json.textField?, members, EventKind.fields]
    simp only [type, EventKind.type, EventKind.read,
      Json.nonemptyField?_eq_of_textField?_eq hparent h]
    simp [Json.textField, Json.textField?, Json.text?, members, EventKind.fields]
  | toolCallResult messageId toolCallId result =>
    have hmessageId : Json.textField? EventKind.messageIdNames
        (toJson ⟨.toolCallResult messageId toolCallId result, timestamp, source⟩) = messageId := by
      simp [Json.textField?, members, EventKind.fields]
    simp only [type, EventKind.type, EventKind.read,
      Json.nonemptyField?_eq_of_textField?_eq hmessageId h]
    simp [Json.textField, Json.textField?, Json.text?, members, EventKind.fields]
  | messagesSnapshot messages =>
    have hmessages : Json.itemsField ["messages"]
        (toJson ⟨.messagesSnapshot messages, timestamp, source⟩) = messages.map Message.toJson := by
      simp [Json.itemsField, Message.listToJson, Json.items?, members, EventKind.fields]
    simp only [type, EventKind.type, EventKind.read, hmessages,
      Message.listOfJson_map_toJson freshId h]
  | _ =>
    simp [EventKind.read, EventKind.type, type, Json.textField, Json.textField?, Json.text?,
      Json.valueField, EventKind.rawData, EventKind.roleField?, Role.toJson, Role.ofName?_name,
      members, EventKind.fields]

/-! ## The time -/

/-- A time that a document may tell. -/
def TellsTime (t : Int) : Prop := leastTime ≤ t ∧ t ≤ greatestTime

theorem timeField?_toJson {e : Event} (h : TellsTime e.timestamp) :
    timeField? e.toJson = some e.timestamp := by
  obtain ⟨hleast, hgreatest⟩ := h
  have hbits : Json.int64? (.int e.timestamp) = some e.timestamp := by
    rw [leastTime] at hleast
    rw [greatestTime] at hgreatest
    have hpow : ((Nat.pow 2 63 : Nat) : Int) = 9223372036854775808 := rfl
    exact if_pos ⟨by omega, by omega⟩
  have hmember : e.toJson.member? "timestamp" = some (.int e.timestamp) := by
    simp [members]
  rw [timeField?, hmember, Option.bind_some, hbits]
  exact Option.filter_some_pos (by simp [hleast, hgreatest])

theorem tellsTime_of_timeField? {doc : Json} {t : Int} (h : timeField? doc = some t) :
    TellsTime t := by
  obtain ⟨-, ht⟩ := Option.filter_eq_some_iff.1 h
  simpa [TellsTime] using ht

/-! ## Events that were read -/

end Event

/-- A moment as it can be: its time is one that a document may tell, and fresh identifiers are not
empty. -/
structure Moment.Possible (m : Moment) : Prop where
  now : Event.TellsTime m.now
  freshId : ∀ n, m.freshId n ≠ ""

theorem EventKind.regular_read {freshId : Nat → String} (h : ∀ n, freshId n ≠ "")
    (type : EventType) (doc : Json) : (EventKind.read freshId type doc).Regular := by
  cases type with
  | toolCallStart => exact Json.nonemptyField?_ne_some_empty _ _
  | toolCallChunk => exact Json.nonemptyField?_ne_some_empty _ _
  | toolCallResult => exact Json.nonemptyField?_ne_some_empty _ _
  | messagesSnapshot => exact Message.regular_listOfJson h _
  | _ => trivial

namespace Event

variable {m : Moment} {doc : Json} {e : Event}

/-- What reading an event leads to. -/
theorem eq_of_ofJson (h : ofJson m doc = .ok e) :
    ∃ typeName, doc.textField? ["type"] = some typeName ∧ e.kind = readKind m typeName doc ∧
      e.timestamp = (timeField? doc).getD m.now := by
  unfold ofJson at h
  split at h
  · split at h
    · rename_i typeName htype
      obtain rfl := Except.ok.inj h
      exact ⟨typeName, htype, rfl, rfl⟩
    · cases h
  · cases h

theorem regular_of_ofJson (hm : m.Possible) (h : ofJson m doc = .ok e) :
    e.kind.Regular ∧ TellsTime e.timestamp := by
  obtain ⟨typeName, -, hkind, htime⟩ := eq_of_ofJson h
  rw [hkind, htime, readKind]
  refine ⟨?_, ?_⟩
  · cases EventType.ofName? typeName with
    | some type => exact EventKind.regular_read hm.freshId type doc
    | none => trivial
  · cases ht : timeField? doc with
    | some t => exact tellsTime_of_timeField? ht
    | none => exact hm.now

/-- What a written event is read back as. -/
theorem exists_ofJson_toJson (m : Moment) (h : e.kind.Regular) :
    ∃ e', ofJson m e.toJson = .ok e' ∧ e'.kind = e.kind ∧
      (TellsTime e.timestamp → e'.timestamp = e.timestamp) := by
  have htype : e.toJson.textField? ["type"] = some e.type.name := by
    simp [Json.textField?, members, Json.text?]
  refine ⟨{ kind := readKind m e.type.name e.toJson
            timestamp := (timeField? e.toJson).getD m.now
            source := some e.toJson }, ?_, ?_, fun htime ↦ ?_⟩
  · rw [toJson, Json.object] at htype ⊢
    simp only [ofJson, htype]
  · simp only [readKind, EventType.ofName?_name]
    exact read_toJson _ e h
  · simp only [timeField?_toJson htime, Option.getD_some]

theorem toJson_congr {e e' : Event} (hkind : e'.kind = e.kind)
    (htime : e'.timestamp = e.timestamp) : e'.toJson = e.toJson := by
  simp only [toJson, type, hkind, htime]

/-- **Reading back.** An event that was read from a document at a possible moment, once written, is
read back at every moment with the same kind and time, and is then written as the same document.
So is every event that is not mistaken for one of which a part is missing, its time if that is one
that a document may tell. -/
theorem ofJson_toJson_eq_ok (m' : Moment) :
    (∀ (m : Moment) (doc : Json) (e : Event), m.Possible → ofJson m doc = .ok e →
      ∃ e', ofJson m' e.toJson = .ok e' ∧ e'.kind = e.kind ∧ e'.timestamp = e.timestamp ∧
        e'.toJson = e.toJson) ∧
    ∀ e : Event, e.kind.Regular →
      ∃ e', ofJson m' e.toJson = .ok e' ∧ e'.kind = e.kind ∧
        (TellsTime e.timestamp → e'.timestamp = e.timestamp ∧ e'.toJson = e.toJson) := by
  refine ⟨fun m doc e hm h ↦ ?_, fun e h ↦ ?_⟩
  · obtain ⟨hregular, htime⟩ := regular_of_ofJson hm h
    obtain ⟨e', he', hkind, htimestamp⟩ := exists_ofJson_toJson m' hregular
    exact ⟨e', he', hkind, htimestamp htime, toJson_congr hkind (htimestamp htime)⟩
  · obtain ⟨e', he', hkind, htimestamp⟩ := exists_ofJson_toJson m' h
    exact ⟨e', he', hkind, fun htime ↦ ⟨htimestamp htime, toJson_congr hkind (htimestamp htime)⟩⟩

/-- A snapshot with a message that has no identifier, and with an old name for its tool calls; and
a tool call that names no parent. -/
theorem ofJson_toJson_eq_ok_snapshot :
    let m : Moment := { now := 7, freshId := fun _ ↦ "m" }
    let m' : Moment := { now := 8, freshId := fun _ ↦ "" }
    let doc : Json := .obj
      [("messages", .arr [.obj [("tool_calls", .arr [.obj [("id", .str "c")]])]]),
        ("type", .str "MESSAGES_SNAPSHOT")]
    let message : Message :=
      { id := "m", role := .user, toolCalls := [{ id := "c", function := { name := "" } }] }
    let e : Event := { kind := .messagesSnapshot [message], timestamp := 7, source := some doc }
    let call : Event := { kind := .toolCallStart "c" "f" none, timestamp := 0 }
    ofJson m doc = .ok e ∧ (∃ e', ofJson m' e.toJson = .ok e' ∧ e'.toJson = e.toJson) ∧
      ∃ e', ofJson m' call.toJson = .ok e' ∧ e'.kind = call.kind := by
  intro m m' doc message e call
  have hm : m.Possible := ⟨⟨by decide, by decide⟩, fun _ ↦ (by decide : "m" ≠ "")⟩
  have hread : ofJson m doc = .ok e := rfl
  obtain ⟨hof, hregular⟩ := ofJson_toJson_eq_ok m'
  obtain ⟨e', he', -, -, hwritten⟩ := hof m doc e hm hread
  obtain ⟨call', hcall', hkind, -⟩ := hregular call nofun
  exact ⟨hread, ⟨e', he', hwritten⟩, call', hcall', hkind⟩

end Event

end AgentSession
