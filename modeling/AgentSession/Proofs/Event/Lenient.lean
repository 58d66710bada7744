import Mathlib.Logic.Relation
import AgentSession.Proofs.Event.RoundTrip
import AgentSession.Proofs.Json.Alias
/-!
# What an event depends on

A document is an event if it is an object that names a type. If it names one that is known, and not
the one of events that are passed through, the kind of the event depends on the values of the fields
that the type has, and on nothing else (`EventKind.read_congr`): not on the time, not on members
that are no fields, and not on the name by which a field goes. `EventType.fields` lists the fields
type by type, and `Message.fields` those of the messages in a snapshot.

That the fields are listed rightly has two sides. If one were missing from the list, the kind would
depend on something else; that none is listed in vain is said by `EventKind.tells_read`: an event
keeps what it finds in a field.

## Fresh identifiers

A message without an identifier is given a fresh one, which is not in the document. Fresh
identifiers are given by position (`Moment.freshId`), and no change that is considered here adds
messages or takes any away. So with the same fresh identifiers the kinds are equal as they stand.
-/

namespace AgentSession

/-! ## Messages -/

namespace Message

/-- The fields of a message in a lenient document. -/
def fields : List Field :=
  [⟨["id"], .text⟩, ⟨["role"], .text⟩, ⟨["content"], .text⟩, ⟨["name"], .text⟩,
    ⟨["toolCalls", "tool_calls"], .items⟩, ⟨["toolCallId", "tool_call_id"], .text⟩]

theorem separate_fields : Field.Separate fields := by decide

variable {doc doc' : Json}

/-- A message depends on its fields only. -/
theorem ofJson_congr (h : ∀ field ∈ fields, field.find? doc' = field.find? doc)
    (freshId : String) : ofJson freshId doc' = ofJson freshId doc := by
  simp only [fields, List.forall_mem_cons] at h
  simp only [ofJson, Json.textField, Json.nonemptyField?, Json.textField?_eq, Json.itemsField_eq, h]

/-- A message has what its document has for tool calls and for a tool call, by whichever names. -/
structure HasCalls (m : Message) (doc : Json) : Prop where
  toolCalls (calls : List Json)
    (h : Field.find? ⟨["toolCalls", "tool_calls"], .items⟩ doc = some (.arr calls)) :
    m.toolCalls = calls.map ToolCall.ofJson
  toolCallId (callId : String) (hne : callId ≠ "")
    (h : Field.find? ⟨["toolCallId", "tool_call_id"], .text⟩ doc = some (.str callId)) :
    m.toolCallId = some callId

theorem hasCalls_ofJson (freshId : String) (doc : Json) : (ofJson freshId doc).HasCalls doc where
  toolCalls calls h := by
    rw [ofJson, Json.itemsField_eq, h]
    rfl
  toolCallId callId hne h := by
    have htext : doc.textField? ["toolCallId", "tool_call_id"] = some callId := by
      rw [Json.textField?_eq, h]
      rfl
    exact Json.nonemptyField?_eq_of_textField?_eq htext fun hs ↦ hne (Option.some.inj hs)

theorem listOfJson_congr (h : ∀ freshId, ofJson freshId doc' = ofJson freshId doc)
    (freshId : Nat → String) (before after : List Json) :
    listOfJson freshId (before ++ doc' :: after) = listOfJson freshId (before ++ doc :: after) := by
  simp only [listOfJson, List.mapIdx_append, List.mapIdx_cons, h]

end Message

/-! ## Kinds of events -/

namespace EventType

open EventKind in
/-- The fields that the events of a type have beside the type itself. What is passed through as text
has none. -/
def fields : EventType → List Field
  | .textMessageStart => [⟨messageIdNames, .text⟩, ⟨["role"], .text⟩]
  | .textMessageContent => [⟨messageIdNames, .text⟩, ⟨deltaNames, .text⟩]
  | .textMessageEnd => [⟨messageIdNames, .text⟩]
  | .textMessageChunk => [⟨messageIdNames, .text⟩, ⟨["role"], .text⟩, ⟨deltaNames, .text⟩]
  | .thinkingTextMessageStart | .thinkingTextMessageEnd | .thinkingEnd => []
  | .thinkingTextMessageContent => [⟨deltaNames, .text⟩]
  | .toolCallStart =>
    [⟨toolCallIdNames, .text⟩, ⟨toolCallNameNames, .text⟩, ⟨parentMessageIdNames, .text⟩]
  | .toolCallArgs => [⟨toolCallIdNames, .text⟩, ⟨deltaNames, .text⟩]
  | .toolCallEnd => [⟨toolCallIdNames, .text⟩]
  | .toolCallChunk =>
    [⟨toolCallIdNames, .text⟩, ⟨toolCallNameNames, .text⟩, ⟨parentMessageIdNames, .text⟩,
      ⟨argumentsNames, .text⟩]
  | .toolCallResult =>
    [⟨messageIdNames, .text⟩, ⟨toolCallIdNames, .text⟩, ⟨toolResultNames, .text⟩]
  | .thinkingStart => [⟨["title"], .text⟩]
  | .stateSnapshot => [⟨["snapshot"], .document⟩]
  | .stateDelta => [⟨patchNames, .document⟩]
  | .messagesSnapshot => [⟨["messages"], .items⟩]
  | .runStarted => [⟨threadIdNames, .text⟩, ⟨runIdNames, .text⟩]
  | .runFinished => [⟨threadIdNames, .text⟩, ⟨runIdNames, .text⟩, ⟨["result"], .document⟩]
  | .runError => [⟨errorMessageNames, .text⟩, ⟨["code"], .text⟩]
  | .stepStarted | .stepFinished => [⟨stepIdNames, .text⟩]
  | .custom => [⟨customNameNames, .text⟩, ⟨customDataNames, .document⟩]
  | .raw => []

end EventType

/-- The name under which a field is written. -/
def Field.first (field : Field) : String := field.names.headD ""

/-- A value that is written again as it was read. An empty text may be read as if it were missing,
and a text that names no role is read as some role. -/
structure Field.Kept (field : Field) (value : Json) : Prop where
  nonempty : value ≠ .str ""
  role : field.names = ["role"] → ∃ role : Role, value = role.toJson

/-- What is written for the value of a field: the value, or the messages that it is read as. -/
def FieldType.told (freshId : Nat → String) : FieldType → Json → Json
  | .items, .arr docs => Message.listToJson (Message.listOfJson freshId docs)
  | _, value => value

namespace EventKind

variable {names : List String} {doc doc' : Json} {type : EventType} {freshId : Nat → String}
  {kind : EventKind}

theorem read_congr (hraw : type ≠ .raw)
    (h : ∀ field ∈ type.fields, field.find? doc' = field.find? doc) (freshId : Nat → String) :
    read freshId type doc' = read freshId type doc := by
  cases type with
  | raw => exact absurd rfl hraw
  | _ =>
    simp only [EventType.fields, List.forall_mem_cons] at h
    simp only [read, roleField?, Json.textField, Json.nonemptyField?, Json.textField?_eq,
      Json.valueField_eq, Json.itemsField_eq, h]

/-- What an event has to do with a field of its document: it is written with its value. -/
def Tells (freshId : Nat → String) (doc : Json) (kind : EventKind) (field : Field) : Prop :=
  ∀ value, field.find? doc = some value → field.Kept value →
    Dict.get? kind.fields field.first = some (field.type.told freshId value)

theorem tells_text (h : ∀ s, doc.textField? names = some s → s ≠ "" →
      Dict.get? kind.fields (names.headD "") = some (.str s)) :
    kind.Tells freshId doc ⟨names, .text⟩ := by
  intro value hvalue hkept
  have hread := Json.textField?_eq names doc
  have hholds := Field.holds_of_find? hvalue
  rw [hvalue, Option.bind_some] at hread
  cases value with
  | str s => exact h s hread fun hs ↦ hkept.nonempty (congrArg Json.str hs)
  | null | bool | num | arr | obj => cases hholds

theorem tells_role (h : ∀ role, roleField? doc = some role →
      Dict.get? kind.fields "role" = some role.toJson) :
    kind.Tells freshId doc ⟨["role"], .text⟩ := by
  intro value hvalue hkept
  obtain ⟨role, rfl⟩ := hkept.role rfl
  refine h role ?_
  rw [roleField?, Json.textField?_eq, hvalue]
  exact Role.ofName?_name role

theorem tells_document
    (h : Dict.get? kind.fields (names.headD "") = some (doc.valueField names)) :
    kind.Tells freshId doc ⟨names, .document⟩ := by
  intro value hvalue _
  rw [Json.valueField_eq, hvalue] at h
  exact h

theorem tells_items (h : Dict.get? kind.fields (names.headD "") =
      some (Message.listToJson (Message.listOfJson freshId (doc.itemsField names)))) :
    kind.Tells freshId doc ⟨names, .items⟩ := by
  intro value hvalue _
  have hholds := Field.holds_of_find? hvalue
  rw [Json.itemsField_eq, hvalue] at h
  cases value with
  | arr items => exact h
  | null | bool | num | str | obj => cases hholds

theorem tells_read (hraw : type ≠ .raw) (freshId : Nat → String) (doc : Json) :
    ∀ field ∈ type.fields, (read freshId type doc).Tells freshId doc field := by
  cases type with
  | raw => exact absurd rfl hraw
  | stateSnapshot | stateDelta => exact List.forall_mem_singleton.2 (tells_document rfl)
  | messagesSnapshot => exact List.forall_mem_singleton.2 (tells_items rfl)
  | textMessageStart =>
    simp only [EventType.fields, List.forall_mem_cons]
    refine ⟨tells_text fun s hs _ ↦ ?_, tells_role fun role hrole ↦ ?_, List.forall_mem_nil _⟩
    · simp only [read, Json.textField, hs]
      rfl
    · simp only [read, hrole]
      rfl
  | textMessageChunk =>
    simp only [EventType.fields, List.forall_mem_cons]
    refine ⟨tells_text fun s hs _ ↦ ?_, tells_role fun role hrole ↦ ?_,
      tells_text fun s hs _ ↦ ?_, List.forall_mem_nil _⟩
    · simp only [read, Json.textField, hs]
      rfl
    · simp only [read, hrole]
      rfl
    · simp only [read, Json.textField, hs]
      rfl
  | runFinished =>
    simp only [EventType.fields, List.forall_mem_cons]
    refine ⟨tells_text fun s hs _ ↦ ?_, tells_text fun s hs _ ↦ ?_, tells_document rfl,
      List.forall_mem_nil _⟩
    all_goals
      simp only [read, Json.textField, hs]
      rfl
  | custom =>
    simp only [EventType.fields, List.forall_mem_cons]
    refine ⟨tells_text fun s hs _ ↦ ?_, tells_document rfl, List.forall_mem_nil _⟩
    simp only [read, Json.textField, hs]
    rfl
  | _ =>
    -- all other fields are texts
    simp only [EventType.fields, List.forall_mem_cons]
    and_intros
    all_goals first
      | exact List.forall_mem_nil _
      | refine tells_text fun s hs hne ↦ ?_
        simp only [read, Json.textField, Json.nonemptyField?, hs]
        simp [fields, hne]

end EventKind

/-! ## Events -/

namespace Event

/-- The type that a document names. Only an object names one. -/
def typeName? (doc : Json) : Option String := (doc.member? "type").bind Json.text?

theorem textField?_type (doc : Json) : doc.textField? ["type"] = typeName? doc := by
  rw [Json.textField?, Json.first?_cons, Json.first?_nil, Option.or_none, typeName?]

theorem exists_ofJson_of_typeName? {doc : Json} {name : String} (h : typeName? doc = some name)
    (m : Moment) : ∃ e, ofJson m doc = .ok e := by
  rw [← textField?_type] at h
  cases doc with
  | obj members =>
    rw [ofJson, h]
    exact ⟨_, rfl⟩
  | null | bool | num | str | arr => cases h

theorem exists_ofJson_error {doc : Json} (h : typeName? doc = none) (m : Moment) :
    ∃ error, ofJson m doc = .error error := by
  rw [← textField?_type] at h
  cases doc with
  | obj members =>
    rw [ofJson, h]
    exact ⟨_, rfl⟩
  | null | bool | num | str | arr => exact ⟨_, rfl⟩

theorem type_read (freshId : Nat → String) (type : EventType) (doc : Json) :
    (EventKind.read freshId type doc).type = type := by
  cases type <;> rfl

theorem type_readKind (m : Moment) (name : String) (doc : Json) :
    (readKind m name doc).type = (EventType.ofName? name).getD .raw := by
  rw [readKind]
  cases EventType.ofName? name with
  | none => rfl
  | some type => exact type_read m.freshId type doc

variable {m m' : Moment} {doc doc' : Json} {e : Event}

theorem typeName?_eq_some_iff {name : String} :
    typeName? doc = some name ↔
      ∃ members, doc = .obj members ∧ Dict.get? members "type" = some (.str name) := by
  rw [typeName?]
  constructor
  · intro h
    obtain ⟨value, hmember, hname⟩ := Option.bind_eq_some_iff.1 h
    cases doc with
    | obj members =>
      refine ⟨members, rfl, hmember.trans (congrArg some ?_)⟩
      cases value with
      | str s => exact congrArg Json.str (Option.some.inj hname)
      | null | bool | num | arr | obj => cases hname
    | null | bool | num | str | arr => cases hmember
  · rintro ⟨members, rfl, htype⟩
    exact congrArg (Option.bind · Json.text?) htype

/-- What an event that is not passed through is read as: a document of a known type. -/
theorem exists_type_of_ofJson (h : ofJson m doc = .ok e) (hraw : e.type ≠ .raw) :
    ∃ name, typeName? doc = some name ∧ EventType.ofName? name = some e.type ∧
      e.kind = .read m.freshId e.type doc := by
  obtain ⟨name, hname, hkind, -⟩ := eq_of_ofJson h
  rw [textField?_type] at hname
  refine ⟨name, hname, ?_⟩
  have htype : e.type = (EventType.ofName? name).getD .raw := by
    rw [type, hkind, type_readKind]
  rw [readKind] at hkind
  cases hof : EventType.ofName? name with
  | none =>
    rw [hof] at htype
    exact absurd htype hraw
  | some type =>
    rw [hof] at htype hkind
    cases htype
    exact ⟨rfl, hkind⟩

/-- The fields that an event of a type is read from, the type among them. -/
def fields (type : EventType) : List Field := ⟨["type"], .text⟩ :: type.fields

theorem separate_fields (type : EventType) : Field.Separate (fields type) := by
  cases type <;> decide

/-- Documents that name the same type, and of which the same is read. -/
structure ReadAlike (type : EventType) (doc doc' : Json) : Prop where
  typeName : typeName? doc' = typeName? doc
  read (freshId : Nat → String) : EventKind.read freshId type doc' = .read freshId type doc

theorem ReadAlike.exists_ofJson (hsame : ReadAlike e.type doc doc') (h : ofJson m doc = .ok e)
    (hraw : e.type ≠ .raw) (hfresh : m'.freshId = m.freshId) :
    ∃ e', ofJson m' doc' = .ok e' ∧ e'.kind = e.kind := by
  obtain ⟨name, hname, hof, hkind⟩ := exists_type_of_ofJson h hraw
  have hname' : typeName? doc' = some name := hsame.typeName.trans hname
  obtain ⟨e', he'⟩ := exists_ofJson_of_typeName? hname' m'
  obtain ⟨_, hname'', hkind', -⟩ := eq_of_ofJson he'
  rw [textField?_type, hname'] at hname''
  cases hname''
  refine ⟨e', he', ?_⟩
  rw [hkind', readKind, hof, hkind, hfresh]
  exact hsame.read m.freshId

/-- Documents with the same values of the fields are read alike. -/
theorem readAlike_of_find?_eq {type : EventType} (hraw : type ≠ .raw)
    (h : ∀ field ∈ fields type, field.find? doc' = field.find? doc) : ReadAlike type doc doc' := by
  obtain ⟨htype, hfields⟩ := List.forall_mem_cons.1 h
  refine ⟨?_, EventKind.read_congr hraw hfields⟩
  rw [← textField?_type, ← textField?_type, Json.textField?_eq, Json.textField?_eq, htype]

/-! ## Changes that are not noticed -/

/-- A change of the members of a document that the kind of an event does not depend on: one that
leaves the values of its fields alone, or does so with a message of a snapshot. -/
inductive Unnoticed (type : EventType) (members : Dict Json) : Dict Json → Prop
  | member {members' : Dict Json} (h : Immaterial (fields type) members members') :
      Unnoticed type members members'
  | message (htype : type = .messagesSnapshot) {before after : List Json}
      {message message' : Dict Json}
      (hmessages : members.get? "messages" = some (.arr (before ++ .obj message :: after)))
      (hsorted : message.Sorted) (h : Immaterial Message.fields message message') :
      Unnoticed type members (members.insert "messages" (.arr (before ++ .obj message' :: after)))

namespace Unnoticed

variable {type : EventType} {members members' : Dict Json}

theorem sorted (h : Unnoticed type members members') (hsorted : members.Sorted) :
    members'.Sorted := by
  cases h with
  | member h => exact h.sorted hsorted
  | message _ _ _ _ => exact hsorted.insert _ _

theorem readAlike (h : Unnoticed type members members') (hraw : type ≠ .raw)
    (hsorted : members.Sorted) : ReadAlike type (.obj members) (.obj members') := by
  cases h with
  | member h =>
    exact readAlike_of_find?_eq hraw fun _ hfield ↦ h.find?_eq hsorted (separate_fields type) hfield
  | message htype hmessages hsorted' h =>
    rename_i before after message message'
    subst htype
    have hread : ∀ freshId,
        Message.ofJson freshId (.obj message') = Message.ofJson freshId (.obj message) :=
      Message.ofJson_congr fun _ hfield ↦ h.find?_eq hsorted' Message.separate_fields hfield
    have hitems : (Json.obj members).itemsField ["messages"] = before ++ .obj message :: after := by
      simp [Json.itemsField, Json.member?, hmessages, Json.items?]
    have hitems' : (Json.obj (members.insert "messages"
        (.arr (before ++ .obj message' :: after)))).itemsField ["messages"] =
          before ++ .obj message' :: after := by
      simp [Json.itemsField, Json.member?, Json.items?]
    refine ⟨?_, fun freshId ↦ ?_⟩
    · rw [typeName?, typeName?, Json.member?, Dict.get?_insert, if_neg (by decide), Json.member?]
    · rw [EventKind.read, EventKind.read, hitems, hitems',
        Message.listOfJson_congr hread freshId before after]

/-- A document is read alike after any number of such changes. -/
theorem readAlike_of_changes (h : Relation.ReflTransGen (Unnoticed type) members members')
    (hraw : type ≠ .raw) (hsorted : members.Sorted) :
    ReadAlike type (.obj members) (.obj members') ∧ members'.Sorted := by
  induction h with
  | refl => exact ⟨⟨rfl, fun _ ↦ rfl⟩, hsorted⟩
  | tail _ hchange ih =>
    obtain ⟨hsame, hsorted'⟩ := ih
    have hlast := hchange.readAlike hraw hsorted'
    exact ⟨⟨hlast.typeName.trans hsame.typeName,
      fun freshId ↦ (hlast.read freshId).trans (hsame.read freshId)⟩, hchange.sorted hsorted'⟩

end Unnoticed

/-- **Lenient reading.** Reading fails just on what is no object or has no text as its type. A
document of a known type is read as an event of this type.

If that is not the type of what is passed through, the kind of the event depends on the values of
the fields of the type only, where a field's value is what the first of its names holds that holds
a value of the right type. The values are not read in vain: the event is written with them, and a
message of a snapshot has the tool calls and the tool call identifier that are found so. The kind
stays the same if members that are no fields are put or taken away, values of the wrong type are
taken away, values go from the first name of a field to another one while no other name holds any,
and names are changed behind one that holds a value: in the document, in the messages of a snapshot,
and as often as one likes. -/
theorem ofJson_of_fields (m : Moment) :
    (∀ doc, (∃ error, ofJson m doc = .error error) ↔
      ¬ ∃ name members, doc = .obj members ∧ Dict.get? members "type" = some (.str name)) ∧
    (∀ (members : Dict Json) (type : EventType), members.get? "type" = some (.str type.name) →
      ∃ e, ofJson m (.obj members) = .ok e ∧ e.type = type) ∧
    (∀ freshId doc, (Message.ofJson freshId doc).HasCalls doc) ∧
    ∀ doc e m', ofJson m doc = .ok e → e.type ≠ .raw → m'.freshId = m.freshId →
      (∀ doc', (∀ field ∈ fields e.type, field.find? doc' = field.find? doc) →
        ∃ e', ofJson m' doc' = .ok e' ∧ e'.kind = e.kind) ∧
      (∀ field ∈ e.type.fields, e.kind.Tells m.freshId doc field) ∧
      ∀ (members members' : Dict Json), doc = .obj members → members.Sorted →
        Relation.ReflTransGen (Unnoticed e.type) members members' →
        ∃ e', ofJson m' (.obj members') = .ok e' ∧ e'.kind = e.kind := by
  refine ⟨fun doc ↦ ?_, fun members type htype ↦ ?_, Message.hasCalls_ofJson,
    fun doc e m' h hraw hfresh ↦ ⟨fun doc' hfields ↦ ?_, ?_, ?_⟩⟩
  · simp only [← typeName?_eq_some_iff]
    cases hname : typeName? doc with
    | none => exact iff_of_true (exists_ofJson_error hname m) nofun
    | some name =>
      obtain ⟨e, he⟩ := exists_ofJson_of_typeName? hname m
      rw [he]
      exact iff_of_false nofun fun h ↦ h ⟨name, rfl⟩
  · have hname : typeName? (.obj members) = some type.name :=
      typeName?_eq_some_iff.2 ⟨members, rfl, htype⟩
    obtain ⟨e, he⟩ := exists_ofJson_of_typeName? hname m
    obtain ⟨name, hname', hkind, -⟩ := eq_of_ofJson he
    rw [textField?_type, hname] at hname'
    cases hname'
    exact ⟨e, he, by rw [Event.type, hkind, type_readKind, EventType.ofName?_name]; rfl⟩
  · exact (readAlike_of_find?_eq hraw hfields).exists_ofJson h hraw hfresh
  · obtain ⟨-, -, -, hkind⟩ := exists_type_of_ofJson h hraw
    rw [hkind]
    exact EventKind.tells_read hraw m.freshId doc
  · rintro members members' rfl hsorted hchanges
    exact (Unnoticed.readAlike_of_changes hchanges hraw hsorted).1.exists_ofJson h hraw hfresh

/-- A piece of a tool call that loses a value of the wrong type, has its identifier renamed and gets
a member that is no field of it; and a snapshot with a message of which the identifier of the tool
call is renamed. -/
theorem ofJson_of_fields_chunk :
    let m : Moment := { now := 7, freshId := fun _ ↦ "m" }
    let members : Dict Json :=
      [("arguments", .str "x"), ("delta", .bool true), ("toolCallId", .str "c"),
        ("type", .str "TOOL_CALL_CHUNK")]
    let members' : Dict Json :=
      [("arguments", .str "x"), ("content", .str "y"), ("tool_call_id", .str "c"),
        ("type", .str "TOOL_CALL_CHUNK")]
    let chunk : Event :=
      { kind := .toolCallChunk "c" none none "x", timestamp := 7, source := some (.obj members) }
    let doc (name : String) : Json :=
      .obj [("messages", .arr [.obj [(name, .str "c")]]), ("type", .str "MESSAGES_SNAPSHOT")]
    let message : Message := { id := "m", role := .user, toolCallId := some "c" }
    let snapshot : Event :=
      { kind := .messagesSnapshot [message], timestamp := 7, source := some (doc "toolCallId") }
    (ofJson m (.obj members) = .ok chunk ∧
        ∃ e, ofJson m (.obj members') = .ok e ∧ e.kind = chunk.kind) ∧
      ofJson m (doc "toolCallId") = .ok snapshot ∧
        ∃ e, ofJson m (doc "tool_call_id") = .ok e ∧ e.kind = snapshot.kind := by
  intro m members members' chunk doc message snapshot
  obtain ⟨-, -, -, hread⟩ := ofJson_of_fields m
  refine ⟨⟨rfl, ?_⟩, rfl, ?_⟩
  · obtain ⟨-, -, hchanges⟩ := hread (.obj members) chunk m rfl (by decide) rfl
    have hdelta : ⟨EventKind.argumentsNames, .text⟩ ∈ fields .toolCallChunk := by decide
    have hcallId : ⟨EventKind.toolCallIdNames, .text⟩ ∈ fields .toolCallChunk := by decide
    have hcontent : ∀ field ∈ fields .toolCallChunk, "content" ∉ field.names := by decide
    have hmistyped : Unnoticed .toolCallChunk members (members.erase "delta") :=
      .member (.mistyped hdelta (by decide) rfl rfl)
    have hrenamed : Unnoticed .toolCallChunk (members.erase "delta")
        (((members.erase "delta").erase "toolCallId").insert "tool_call_id" (.str "c")) :=
      .member (.renamed hcallId (by decide) rfl (by decide))
    have hstray : Unnoticed .toolCallChunk
        (((members.erase "delta").erase "toolCallId").insert "tool_call_id" (.str "c")) members' :=
      .member (.stray hcontent (some (.str "y")))
    exact hchanges members members' rfl (by decide)
      (((Relation.ReflTransGen.single hmistyped).tail hrenamed).tail hstray)
  · obtain ⟨-, -, hchanges⟩ := hread (doc "toolCallId") snapshot m rfl (by decide) rfl
    have hcallId : ⟨["toolCallId", "tool_call_id"], .text⟩ ∈ Message.fields := by decide
    have hrenamed : Immaterial Message.fields [("toolCallId", .str "c")]
        [("tool_call_id", .str "c")] :=
      .renamed hcallId (by decide) rfl (by decide)
    refine hchanges _ _ rfl (by decide) (.single ?_)
    exact @Unnoticed.message _ _ rfl [] [] _ _ rfl (by decide) hrenamed

end Event

end AgentSession
