import AgentSession.Proofs.Message.Change
import AgentSession.Proofs.Session.Streams
/-!
# Effects by cases

What an event does depends on what it finds. This module opens each family of events once, and gives
its cases as equations for the whole effect, so that what follows need not look into the
definitions.

A new tool call is added to a message that is there, or to one that is added for it
(`Session.resolveParent_cases`). That message is then found, so a call can be refused for one reason
only: the message holds a call with the same identifier (`Session.openToolCall_cases`).

## Fresh identifiers

An event may draw an identifier for a message that it adds. `Session.DrawsFresh` says that no
message has the identifier drawn. A message that is added for a tool call is then the only one with
its identifier, and holds no call yet.
-/

namespace AgentSession

/-- What the identifier names that an event may draw. -/
def EventKind.drawnKind? : EventKind → Option IdKind
  | .thinkingTextMessageStart => some .thinking
  | .textMessageChunk _ _ _ | .toolCallStart _ _ _ | .toolCallChunk _ _ _ _ => some .message
  | .toolCallResult _ _ _ => some .toolResult
  | _ => none

namespace Message

theorem has_eq_false_iff {ms : List Message} {id : String} :
    has ms id = false ↔ id ∉ ms.map Message.id := by
  rw [has, List.any_eq_false, List.mem_map]
  simp

theorem find?_concat_self {ms : List Message} {m : Message} (h : m.id ∉ ms.map Message.id) :
    find? (ms ++ [m]) m.id = some m := by
  have hnone : find? ms m.id = none := find?_eq_none h
  unfold find? at hnone ⊢
  rw [List.find?_append, hnone, Option.none_or]
  simp

end Message

namespace Session

/-- If an event draws an identifier, no message has it. -/
def DrawsFresh (s : Session) (k : EventKind) : Prop :=
  (s.apply k).session.ids.drawn ≠ s.ids.drawn →
    ∀ kind, k.drawnKind? = some kind → (s.drawId kind).1 ∉ s.messages.map Message.id

variable {s : Session} {callId name : String} {requested : Option String}

/-! ## The message of a new tool call -/

theorem resolveParent_cases (s : Session) (requested : Option String) :
    (∃ id, Message.has s.messages id = true ∧ s.resolveParent requested = (id, s, [])) ∨
      ∃ id ids, s.resolveParent requested =
          (id, { s with messages := s.messages ++ [{ id, role := .assistant }], ids },
            [.newMessage { id, role := .assistant }]) ∧
        (id ∉ s.messages.map Message.id ∨
          (ids.drawn ≠ s.ids.drawn ∧ id = (s.drawId .message).1)) := by
  unfold resolveParent
  cases requested with
  | some id =>
    dsimp only
    cases hhas : Message.has s.messages id with
    | true => exact .inl ⟨id, hhas, rfl⟩
    | false => exact .inr ⟨id, s.ids, rfl, .inl (Message.has_eq_false_iff.1 hhas)⟩
  | none =>
    dsimp only
    cases hlast : Message.lastIfAssistant? s.messages with
    | some last =>
      refine .inl ⟨last.id, List.any_eq_true.2 ⟨last, ?_, beq_self_eq_true last.id⟩, rfl⟩
      rw [Message.lastIfAssistant?, Option.filter_eq_some_iff] at hlast
      exact List.mem_of_getLast? hlast.1
    | none => exact .inr ⟨_, _, rfl, .inr ⟨Nat.succ_ne_self _, rfl⟩⟩

/-- The message of a new tool call is there, or is added with an identifier that none has. -/
theorem resolveParent_fresh
    (hfresh : (s.resolveParent requested).2.1.ids.drawn ≠ s.ids.drawn →
      (s.drawId .message).1 ∉ s.messages.map Message.id) :
    (∃ id, Message.has s.messages id = true ∧ s.resolveParent requested = (id, s, [])) ∨
      ∃ id ids, s.resolveParent requested =
          (id, { s with messages := s.messages ++ [{ id, role := .assistant }], ids },
            [.newMessage { id, role := .assistant }]) ∧
        id ∉ s.messages.map Message.id := by
  rcases s.resolveParent_cases requested with hthere | ⟨id, ids, heq, hid | ⟨hdrawn, rfl⟩⟩
  · exact .inl hthere
  · exact .inr ⟨id, ids, heq, hid⟩
  · rw [heq] at hfresh
    exact .inr ⟨_, ids, heq, hfresh hdrawn⟩

theorem exists_find?_resolveParent (s : Session) (requested : Option String) :
    ∃ m, Message.find? (s.resolveParent requested).2.1.messages (s.resolveParent requested).1 =
      some m := by
  refine Option.isSome_iff_exists.1 ?_
  rw [← Message.has_eq_isSome_find?]
  rcases s.resolveParent_cases requested with ⟨id, hhas, heq⟩ | ⟨id, ids, heq, -⟩
  · rw [heq]
    exact hhas
  · rw [heq]
    refine List.any_eq_true.2 ⟨{ id, role := .assistant }, ?_, beq_self_eq_true id⟩
    exact List.mem_append_right _ (List.mem_singleton_self _)

/-! ## Adding a tool call -/

/-- A new tool call is refused because its message holds one with the same identifier, and otherwise
is added to that message. -/
theorem openToolCall_cases (s : Session) (callId name : String) (requested : Option String) :
    let parentId := (s.resolveParent requested).1
    let resolved := (s.resolveParent requested).2.1
    let notices := (s.resolveParent requested).2.2
    ∃ parent, Message.find? resolved.messages parentId = some parent ∧
      ((parent.findToolCall? callId ≠ none ∧
          s.openToolCall callId name requested = ⟨resolved, notices,
            .error (.validation s!"duplicate tool call {callId} in message {parentId}")⟩) ∨
        (parent.findToolCall? callId = none ∧
          ∃ messages, Message.modify? (fun m ↦ some (m.addToolCall (ToolCall.new callId name)))
              parentId resolved.messages = some messages ∧
            s.openToolCall callId name requested = ⟨{ resolved with messages },
              notices ++ [.newToolCall (ToolCall.new callId name)], .ok parentId⟩)) := by
  intro parentId resolved notices
  obtain ⟨parent, hparent⟩ := s.exists_find?_resolveParent requested
  refine ⟨parent, hparent, ?_⟩
  cases hcall : parent.findToolCall? callId with
  | some call =>
    refine .inl ⟨Option.some_ne_none call, ?_⟩
    simp only [openToolCall, hparent, hcall, Option.isSome_some, if_true]
    rfl
  | none =>
    obtain ⟨messages, hmessages, -⟩ := Message.exists_modify?
      (f := fun m ↦ some (m.addToolCall (ToolCall.new callId name))) hparent rfl rfl
    refine .inr ⟨rfl, messages, hmessages, ?_⟩
    simp only [openToolCall, hparent, hcall, hmessages, Option.isSome_none, Bool.false_eq_true,
      if_false, Option.getD_some]
    rfl

theorem openToolCall_error_validation {failure : Failure}
    (h : (s.openToolCall callId name requested).outcome = .error failure) :
    ∃ message, failure = .validation message := by
  obtain ⟨parent, -, ⟨-, heq⟩ | ⟨-, messages, -, heq⟩⟩ :=
    s.openToolCall_cases callId name requested
  · rw [heq] at h
    exact ⟨_, (Except.error.inj h).symm⟩
  · rw [heq] at h
    cases h

/-- A tool call that is refused leaves everything as it was. -/
theorem openToolCall_of_error {failure : Failure}
    (hfresh : (s.openToolCall callId name requested).session.ids.drawn ≠ s.ids.drawn →
      (s.drawId .message).1 ∉ s.messages.map Message.id)
    (h : (s.openToolCall callId name requested).outcome = .error failure) :
    s.openToolCall callId name requested = ⟨s, [], .error failure⟩ := by
  obtain ⟨parent, hparent, ⟨hcall, heq⟩ | ⟨-, messages, -, heq⟩⟩ :=
    s.openToolCall_cases callId name requested
  · rw [heq] at hfresh h
    obtain rfl := Except.error.inj h
    rcases resolveParent_fresh hfresh with ⟨id, -, hresolved⟩ | ⟨id, ids, hresolved, hid⟩
    · rw [heq, hresolved]
    · -- a message that was added for the call holds none that could stand in its way
      rw [hresolved] at hparent
      have hself := Message.find?_concat_self (m := { id, role := .assistant }) hid
      rw [hself] at hparent
      obtain rfl := Option.some.inj hparent
      exact absurd rfl hcall
  · rw [heq] at h
    cases h

/-! ## Starts and pieces of tool calls -/

/-- More arguments for a tool call change one message, which holds the call. -/
theorem changed_of_appendArguments? {delta : String} {messages : List Message}
    (h : s.appendArguments? callId delta = some messages) :
    Message.Changed (fun m m' ↦ Message.appendArguments? callId delta m = some m') s.messages
      messages := by
  rw [appendArguments?] at h
  split at h
  · exact (Message.changed_of_modify? h).imp fun _ _ hm ↦ hm.2
  · exact Message.changed_of_modifyNewest? h

theorem startCall_of_error {failure : Failure}
    (h : (s.openToolCall callId name requested).outcome = .error failure) :
    s.startCall callId name requested = s.openToolCall callId name requested := by
  unfold startCall
  generalize s.openToolCall callId name requested = opened at h ⊢
  obtain ⟨session, notices, outcome⟩ := opened
  rw [show outcome = .error failure from h]

theorem startCall_of_ok {parentId : String}
    (h : (s.openToolCall callId name requested).outcome = .ok parentId) :
    s.startCall callId name requested =
      { session :=
          { (s.openToolCall callId name requested).session with
            argumentBuffers :=
              (s.openToolCall callId name requested).session.argumentBuffers.insert callId ""
            callParents :=
              (s.openToolCall callId name requested).session.callParents.insert callId parentId }
        notices := (s.openToolCall callId name requested).notices } := by
  unfold startCall
  generalize s.openToolCall callId name requested = opened at h ⊢
  obtain ⟨session, notices, outcome⟩ := opened
  rw [show outcome = .ok parentId from h]

theorem chunkCall_of_some {delta : String} {messages : List Message}
    (h : s.appendArguments? callId delta = some messages) (callName parent : Option String) :
    s.chunkCall callId callName parent delta =
      { session := { s with messages }, notices := [.messagesChanged messages] } := by
  simp [chunkCall, chunkArguments, h]

theorem chunkCall_of_none {delta : String} (h : s.appendArguments? callId delta = none)
    (callName parent : Option String) :
    s.chunkCall callId callName parent delta =
      match s.openToolCall callId (callName.getD "") parent with
      | ⟨s, notices, .error failure⟩ => ⟨s, notices, .error failure⟩
      | ⟨s, notices, .ok _⟩ => s.chunkArguments callId delta notices := by
  rw [chunkCall, h]
  rfl

theorem chunkCall_of_error {delta : String} {callName : Option String} {failure : Failure}
    (hnone : s.appendArguments? callId delta = none)
    (h : (s.openToolCall callId (callName.getD "") requested).outcome = .error failure) :
    s.chunkCall callId callName requested delta =
      s.openToolCall callId (callName.getD "") requested := by
  rw [chunkCall_of_none hnone]
  generalize s.openToolCall callId (callName.getD "") requested = opened at h ⊢
  obtain ⟨session, notices, outcome⟩ := opened
  rw [show outcome = .error failure from h]

theorem chunkCall_of_ok {delta parentId : String} {callName : Option String}
    (hnone : s.appendArguments? callId delta = none)
    (h : (s.openToolCall callId (callName.getD "") requested).outcome = .ok parentId) :
    s.chunkCall callId callName requested delta =
      (s.openToolCall callId (callName.getD "") requested).session.chunkArguments callId delta
        (s.openToolCall callId (callName.getD "") requested).notices := by
  rw [chunkCall_of_none hnone]
  generalize s.openToolCall callId (callName.getD "") requested = opened at h ⊢
  obtain ⟨session, notices, outcome⟩ := opened
  rw [show outcome = .ok parentId from h]

theorem resultOfCall_cases (s : Session) (messageId : Option String) (callId result : String) :
    (∃ id, id ∉ s.messages.map Message.id ∧
        s.resultOfCall messageId callId result =
          let m := Message.toolResult id callId result
          { session := s.addMessage m
            notices := [.newMessage m, .messagesChanged (s.addMessage m).messages] }) ∨
      s.resultOfCall messageId callId result =
        let (id, s) := s.drawId .toolResult
        let m := Message.toolResult id callId result
        { session := s.addMessage m
          notices := [.newMessage m, .messagesChanged (s.addMessage m).messages] } := by
  unfold resultOfCall
  cases hid : messageId.filter fun id ↦ !Message.has s.messages id with
  | some id =>
    have hnew := (Option.filter_eq_some_iff.1 hid).2
    exact .inl ⟨id, Message.has_eq_false_iff.1 (by simpa using hnew), rfl⟩
  | none => exact .inr rfl

/-! ## Text and thinking messages -/

/-- Finding the message of a piece of text does no more than to draw an identifier. -/
theorem chunkTarget_session (s : Session) (id : String) :
    ∃ ids, (s.chunkTarget id).2 = { s with ids } := by
  unfold chunkTarget
  split
  · split
    · exact ⟨s.ids, rfl⟩
    · exact ⟨_, rfl⟩
  · exact ⟨s.ids, rfl⟩

theorem chunkText_cases (s : Session) (id : String) (role : Option Role) (delta : String) :
    let target := (s.chunkTarget id).1
    let located := (s.chunkTarget id).2
    (∃ messages, Message.appendTo? located.messages target delta = some messages ∧
        s.chunkText id role delta =
          { session := { located with messages }, notices := [.messagesChanged messages] }) ∨
      (Message.appendTo? located.messages target delta = none ∧
        s.chunkText id role delta =
          let m : Message := { id := target, role := role.getD .assistant, content := delta }
          { session := located.addMessage m
            notices := [.newMessage m, .messagesChanged (located.addMessage m).messages] }) := by
  rw [chunkText]
  rcases s.chunkTarget id with ⟨target, located⟩
  dsimp only
  cases Message.appendTo? located.messages target delta with
  | some messages => exact .inl ⟨messages, rfl, rfl⟩
  | none => exact .inr ⟨rfl, rfl⟩

/-- Where there is no message, thinking that goes on has no effect. -/
theorem continueThinking_of_nil (h : s.messages = []) (delta : String) :
    s.continueThinking delta = { session := s } := by
  rw [continueThinking, h]

theorem continueThinking_of_none (h : s.messages ≠ []) (hthinking : s.openThinking = none)
    (delta : String) :
    s.continueThinking delta =
      { session := { s with messages := Message.appendToLast delta s.messages } } := by
  rw [continueThinking]
  cases hmessages : s.messages with
  | nil => exact absurd hmessages h
  | cons m ms => simp only [hthinking]

theorem continueThinking_of_some (h : s.messages ≠ []) {id : String}
    (hthinking : s.openThinking = some id) (delta : String) :
    s.continueThinking delta =
      { session :=
          { s with
            messages := Message.appendToLast delta s.messages
            textBuffers := (s.textBuffers.appendText id delta).2 }
        outcome := .ok (s.textBuffers.appendText id delta).1 } := by
  rw [continueThinking]
  cases hmessages : s.messages with
  | nil => exact absurd hmessages h
  | cons m ms => simp only [hthinking]

theorem endThinking_of_none (h : s.openThinking = none) :
    s.endThinking = { session := s, notices := [.messagesChanged s.messages] } := by
  rw [endThinking, h]

theorem endThinking_of_some {id : String} (h : s.openThinking = some id) :
    s.endThinking =
      { session := { s with textBuffers := (s.textBuffers.closeText id).2, openThinking := none }
        notices := [.messagesChanged s.messages]
        outcome := .ok (s.textBuffers.closeText id).1 } := by
  rw [endThinking, h]

theorem exists_continueThinking_ok (s : Session) (delta : String) :
    ∃ text, (s.continueThinking delta).outcome = .ok text := by
  by_cases h : s.messages = []
  · exact ⟨"", by rw [continueThinking_of_nil h]⟩
  · cases hthinking : s.openThinking with
    | none => exact ⟨"", by rw [continueThinking_of_none h hthinking]⟩
    | some id => exact ⟨_, by rw [continueThinking_of_some h hthinking]⟩

/-! ## Events that fail -/

/-- Only two kinds of failures come from applying an event: a tool call is refused, or a patch. -/
theorem apply_error_cases {k : EventKind} {failure : Failure}
    (h : (s.apply k).outcome = .error failure) :
    (∃ callId name requested, k.drawnKind? = some .message ∧
        (s.openToolCall callId name requested).outcome = .error failure ∧
        s.apply k = s.openToolCall callId name requested) ∨
      ∃ delta, s.store.patch delta = .error failure ∧ s.apply k = ⟨s, [], .error failure⟩ := by
  cases k with
  | toolCallStart callId name requested =>
    refine .inl ⟨callId, name, requested, rfl, ?_⟩
    change (s.startCall callId name requested).outcome = .error failure at h
    change _ ∧ s.startCall callId name requested = _
    cases hopen : (s.openToolCall callId name requested).outcome with
    | error refused =>
      rw [startCall_of_error hopen] at h ⊢
      exact ⟨hopen.symm.trans h, rfl⟩
    | ok parentId =>
      rw [startCall_of_ok hopen] at h
      cases h
  | toolCallChunk callId callName requested delta =>
    refine .inl ⟨callId, callName.getD "", requested, rfl, ?_⟩
    change (s.chunkCall callId callName requested delta).outcome = .error failure at h
    change _ ∧ s.chunkCall callId callName requested delta = _
    cases hfound : s.appendArguments? callId delta with
    | some messages =>
      rw [chunkCall_of_some hfound] at h
      cases h
    | none =>
      cases hopen : (s.openToolCall callId (callName.getD "") requested).outcome with
      | error refused =>
        rw [chunkCall_of_error hfound hopen] at h ⊢
        exact ⟨hopen.symm.trans h, rfl⟩
      | ok parentId =>
        rw [chunkCall_of_ok hfound hopen] at h
        cases h
  | stateDelta delta =>
    refine .inr ⟨delta, ?_⟩
    change (s.patchState delta).outcome = .error failure at h
    change _ ∧ s.patchState delta = _
    rw [patchState] at h ⊢
    cases hpatch : s.store.patch delta with
    | error refused =>
      rw [hpatch] at h
      obtain rfl := Except.error.inj h
      exact ⟨rfl, rfl⟩
    | ok store =>
      rw [hpatch] at h
      cases h
  | textMessageStart id role =>
    have hok : (s.apply (.textMessageStart id role)).outcome = .ok "" := (s.startText_eq id).1
    rw [hok] at h
    cases h
  | textMessageChunk id role delta =>
    change (s.chunkText id role delta).outcome = .error failure at h
    rcases s.chunkText_cases id role delta with ⟨messages, -, heq⟩ | ⟨-, heq⟩
    · rw [heq] at h
      cases h
    · rw [heq] at h
      cases h
  | thinkingTextMessageContent delta =>
    obtain ⟨text, hok⟩ := s.exists_continueThinking_ok delta
    change (s.continueThinking delta).outcome = .error failure at h
    rw [hok] at h
    cases h
  | thinkingTextMessageEnd =>
    change s.endThinking.outcome = .error failure at h
    cases hthinking : s.openThinking with
    | none =>
      rw [endThinking_of_none hthinking] at h
      cases h
    | some id =>
      rw [endThinking_of_some hthinking] at h
      cases h
  | _ => cases h

end Session

end AgentSession
