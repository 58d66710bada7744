import AgentSession.Proofs.Session.Buffers
import AgentSession.Proofs.Session.CallPieces
import AgentSession.Proofs.Session.Gathering
/-!
# Two forms of the same content

The text of a message and the arguments of a tool call can be sent in two forms. As a stream they
begin, go on in parts, and end. In pieces they just come, and the first piece adds the message or
the call if it is missing. Both forms lead to the same messages and draw the same identifiers
(`Session.handlesAlike_contentForms`). They differ in what is open: a stream opens and closes a
buffer, and pieces touch none.

## The argument

The two forms find what they add to in different ways. A part of a tool call is looked for in the
message that the call was started in, a piece of one in the newest message that holds it. So the
sessions are compared not from the beginning but from a session where the message or the call has
been added without content. The first piece does the same to that session as to the original one,
and from there on pieces and parts keep two sessions in step (`Session.exists_handleEach_inStep`).
For tool calls this rests on what both searches find: the call that was added to a list of messages
that held none (`Session.CallInStep`).
-/

namespace AgentSession

variable {σ : Type}

/-- The two forms in which the same content may be sent. -/
structure ContentForms where
  /-- How a stream begins. -/
  start : EventKind
  /-- How a stream goes on. -/
  part : String → EventKind
  /-- How a stream ends. -/
  finish : EventKind
  /-- What comes in place of a stream. -/
  piece : String → EventKind

namespace ContentForms

/-- The forms of a text message. The roles that a stream and a piece tell need not be the same. -/
def text (id : String) (startRole : Role) (role : Option Role) : ContentForms where
  start := .textMessageStart id startRole
  part := .textMessageContent id
  finish := .textMessageEnd id
  piece := .textMessageChunk id role

/-- The forms of a tool call. -/
def call (callId : String) (name parent : Option String) : ContentForms where
  start := .toolCallStart callId (name.getD "") parent
  part := .toolCallArgs callId
  finish := .toolCallEnd callId
  piece := .toolCallChunk callId name parent

def stream (f : ContentForms) (deltas : List String) : List EventKind :=
  f.start :: (deltas.map f.part ++ [f.finish])

def pieces (f : ContentForms) (deltas : List String) : List EventKind := deltas.map f.piece

end ContentForms

/-- It is a piece of a text message or of a tool call. -/
def EventKind.isPiece : EventKind → Bool
  | .textMessageChunk _ _ _ | .toolCallChunk _ _ _ _ => true
  | _ => false

namespace Session

/-- A session handles both forms without failure, and has the same messages and has drawn the same
identifiers after them. -/
def HandlesAlike (s : Session) (f : ContentForms) (deltas : List String) : Prop :=
  ∀ pieces stream : List Event,
    pieces.map Event.kind = f.pieces deltas → stream.map Event.kind = f.stream deltas →
      ∃ s₁ s₂, s.handleEach pieces = .ok s₁ ∧ s.handleEach stream = .ok s₂ ∧
        s₁.messages = s₂.messages ∧ s₁.ids = s₂.ids

/-- An event is applied without failure and leads to a session. -/
def Becomes (s : Session) (k : EventKind) (s' : Session) : Prop :=
  (∃ text, (s.apply k).outcome = .ok text) ∧ (s.apply k).session = s'

variable {s s' t : Session} {f : ContentForms} {id callId delta : String}
  {name requested : Option String} {role : Option Role} {messages : List Message}

/-! ## Two sessions in step -/

theorem Becomes.handleEach_cons {e : Event} (h : s.Becomes e.kind s') (events : List Event) :
    s.handleEach (e :: events) = s'.handleEach events := by
  obtain ⟨⟨text, htext⟩, rfl⟩ := h
  exact Session.handleEach_cons htext events

theorem handleEach_append {events : List Event} (h : s.handleEach events = .ok s')
    (more : List Event) : s.handleEach (events ++ more) = s'.handleEach more := by
  induction events generalizing s with
  | nil =>
    obtain rfl := Except.ok.inj h
    rfl
  | cons e events ih =>
    rw [handleEach] at h
    rw [List.cons_append, handleEach]
    cases houtcome : (s.handle ([] : List (Subscriber Unit)) e ()).outcome with
    | error failure =>
      rw [houtcome] at h
      cases h
    | ok m =>
      rw [houtcome] at h
      exact ih h

/-- If each piece and the part of the same content keep two sessions in step, so do all of them. -/
theorem exists_handleEach_inStep {R : Session → Session → Prop} {piece part : String → EventKind}
    (hstep : ∀ s t delta, R s t →
      ∃ s' t', s.Becomes (piece delta) s' ∧ t.Becomes (part delta) t' ∧ R s' t')
    {deltas : List String} {pieces parts : List Event}
    (hpieces : pieces.map Event.kind = deltas.map piece)
    (hparts : parts.map Event.kind = deltas.map part) (hst : R s t) :
    ∃ s' t', s.handleEach pieces = .ok s' ∧ t.handleEach parts = .ok t' ∧ R s' t' := by
  induction deltas generalizing pieces parts s t with
  | nil =>
    obtain rfl := List.map_eq_nil_iff.1 hpieces
    obtain rfl := List.map_eq_nil_iff.1 hparts
    exact ⟨s, t, rfl, rfl, hst⟩
  | cons delta deltas ih =>
    obtain ⟨e, pieces, rfl, he, hpieces⟩ := List.map_eq_cons_iff.1 hpieces
    obtain ⟨e', parts, rfl, he', hparts⟩ := List.map_eq_cons_iff.1 hparts
    obtain ⟨s', t', hs', ht', hst'⟩ := hstep s t delta hst
    rw [← he] at hs'
    rw [← he'] at ht'
    rw [hs'.handleEach_cons, ht'.handleEach_cons]
    exact ih hpieces hparts hst'

/-- Both forms lead to the same messages if there is a session to which the first piece does the
same, and which stays in step with the one that a stream has begun in. -/
theorem handlesAlike_of_inStep {R : Session → Session → Prop} {opened : Session}
    (hfirst : ∀ delta, ∃ s', s.Becomes (f.piece delta) s' ∧ opened.Becomes (f.piece delta) s')
    (hstart : ∃ t, s.Becomes f.start t ∧ R opened t)
    (hstep : ∀ s t delta, R s t →
      ∃ s' t', s.Becomes (f.piece delta) s' ∧ t.Becomes (f.part delta) t' ∧ R s' t')
    (hfinish : ∀ s t, R s t →
      ∃ t', t.Becomes f.finish t' ∧ s.messages = t'.messages ∧ s.ids = t'.ids)
    {deltas : List String} (hdeltas : deltas ≠ []) : s.HandlesAlike f deltas := by
  intro pieces stream hpieces hstream
  obtain ⟨begin, rest, rfl, hbegin, hrest⟩ := List.map_eq_cons_iff.1 hstream
  obtain ⟨parts, ending, rfl, hparts, hending⟩ := List.map_eq_append_iff.1 hrest
  obtain ⟨last, ending, rfl, hlast, hending⟩ := List.map_eq_cons_iff.1 hending
  obtain rfl := List.map_eq_nil_iff.1 hending
  obtain ⟨t, ht, hopened⟩ := hstart
  obtain ⟨s₁, t₁, hs₁, ht₁, hst₁⟩ := exists_handleEach_inStep hstep hpieces hparts hopened
  obtain ⟨s₂, hs₂, hmessages, hids⟩ := hfinish s₁ t₁ hst₁
  rw [← hbegin] at ht
  rw [← hlast] at hs₂
  refine ⟨s₁, s₂, ?_, ?_, hmessages, hids⟩
  · -- there is a first piece, and after it nothing tells the two beginnings apart
    obtain ⟨delta, deltas, rfl⟩ := List.exists_cons_of_ne_nil hdeltas
    obtain ⟨e, pieces, rfl, he, -⟩ := List.map_eq_cons_iff.1 hpieces
    obtain ⟨s', hs', hopened'⟩ := hfirst delta
    rw [← he] at hs' hopened'
    rw [hs'.handleEach_cons, ← hopened'.handleEach_cons, hs₁]
  · rw [ht.handleEach_cons, handleEach_append ht₁, hs₂.handleEach_cons]
    rfl

/-! ## Text messages -/

theorem becomes_textPiece (hid : id ≠ "")
    (h : Message.appendTo? s.messages id delta = some messages) :
    s.Becomes (.textMessageChunk id role delta) { s with messages } := by
  have htarget : s.chunkTarget id = (id, s) := if_neg hid
  have heq : s.apply (.textMessageChunk id role delta) =
      { session := { s with messages }, notices := [.messagesChanged messages] } := by
    simp only [apply, chunkText, htarget, h]
  rw [Becomes, heq]
  exact ⟨⟨"", rfl⟩, rfl⟩

theorem becomes_textPiece_of_none (hid : id ≠ "")
    (h : Message.appendTo? s.messages id delta = none) :
    s.Becomes (.textMessageChunk id role delta)
      (s.addMessage { id, role := role.getD .assistant, content := delta }) := by
  have htarget : s.chunkTarget id = (id, s) := if_neg hid
  have hsession : (s.apply (.textMessageChunk id role delta)).session =
        s.addMessage { id, role := role.getD .assistant, content := delta } ∧
      (s.apply (.textMessageChunk id role delta)).outcome = .ok "" := by
    simp only [apply, chunkText, htarget, h, and_self]
  exact ⟨⟨"", hsession.2⟩, hsession.1⟩

theorem exists_appendTo? {ms : List Message} (h : Message.has ms id = true) (delta : String) :
    ∃ messages, Message.appendTo? ms id delta = some messages ∧
      Message.has messages id = true := by
  rw [Message.has_eq_isSome_find?] at h
  obtain ⟨m, hm⟩ := Option.isSome_iff_exists.1 h
  obtain ⟨messages, hmessages, -, hfind⟩ :=
    Message.exists_modify? (f := fun m ↦ some (m.append delta)) hm rfl rfl
  refine ⟨messages, hmessages, ?_⟩
  rw [Message.has_eq_isSome_find?, hfind, if_pos rfl, Option.isSome_some]

/-- The first piece does the same where an empty message has been added for it. -/
theorem exists_becomes_textPiece (hid : id ≠ "") (hrole : role = none ∨ role = some .assistant)
    (s : Session) (delta : String) :
    ∃ s', s.Becomes (.textMessageChunk id role delta) s' ∧
      Becomes { s with messages := Message.ensured s.messages id }
        (.textMessageChunk id role delta) s' := by
  cases hhas : Message.has s.messages id with
  | true =>
    obtain ⟨messages, hmessages, -⟩ := exists_appendTo? hhas delta
    have hs' : s.Becomes (.textMessageChunk id role delta) { s with messages } :=
      becomes_textPiece hid hmessages
    rw [Message.ensured, if_pos hhas]
    exact ⟨_, hs', hs'⟩
  | false =>
    have hnew : id ∉ s.messages.map Message.id := Message.has_eq_false_iff.1 hhas
    have hnone : Message.appendTo? s.messages id delta = none := by
      refine Message.modify?_eq_none_iff.2 fun m hm ↦ ?_
      rw [Message.find?_eq_none hnew] at hm
      cases hm
    let m : Message := { id, role := .assistant }
    have hconcat : Message.appendTo? (s.messages ++ [m]) id delta =
        some (s.messages ++ [m.append delta]) := Message.modify?_concat (m := m) hnew
    have hm : m.append delta = { id, role := role.getD .assistant, content := delta } := by
      have hrole : role.getD .assistant = .assistant := by
        rcases hrole with rfl | rfl <;> rfl
      rw [hrole, Message.append, String.empty_append]
    refine ⟨_, becomes_textPiece_of_none hid hnone, ?_⟩
    rw [Message.ensured, hhas, if_neg Bool.false_ne_true, addMessage, ← hm]
    exact becomes_textPiece hid hconcat

theorem handlesAlike_text (hid : id ≠ "") (hrole : role = none ∨ role = some .assistant)
    (s : Session) (startRole : Role) {deltas : List String} (hdeltas : deltas ≠ []) :
    s.HandlesAlike (.text id startRole role) deltas := by
  let R (s t : Session) : Prop :=
    Message.has s.messages id = true ∧ s.messages = t.messages ∧ s.ids = t.ids
  have hensured : Message.has (Message.ensured s.messages id) id = true := by
    rw [Message.has_eq_isSome_find?, Message.find?_ensured, if_pos rfl, Option.isSome_some]
  refine handlesAlike_of_inStep (R := R) (exists_becomes_textPiece hid hrole s) ?_ ?_ ?_ hdeltas
  · obtain ⟨houtcome, hsession⟩ := s.startText_eq id
    exact ⟨_, ⟨⟨"", houtcome⟩, hsession⟩, hensured, rfl, rfl⟩
  · rintro s t delta ⟨hhas, hmessages, hids⟩
    obtain ⟨messages, happend, hhas⟩ := exists_appendTo? hhas delta
    refine ⟨_, _, becomes_textPiece hid happend, ⟨⟨_, rfl⟩, rfl⟩, hhas, ?_, hids⟩
    change messages = (Message.appendTo? t.messages id delta).getD t.messages
    rw [← hmessages, happend, Option.getD_some]
  · rintro s t ⟨-, hmessages, hids⟩
    exact ⟨_, ⟨⟨_, rfl⟩, rfl⟩, hmessages, hids⟩

/-! ## Tool calls -/

/-- Two sessions in step over a tool call that was added to a list of messages that held none with
its identifier. In the first it is not open, and in the second it is. -/
structure CallInStep (origin : List Message) (callId parentId : String) (s t : Session) : Prop where
  closed : s.callParents.get? callId = none
  parent : t.callParents.get? callId = some parentId
  messages : s.messages = t.messages
  ids : s.ids = t.ids
  added : ∃ call : ToolCall, call.id = callId ∧
    Message.modify? (fun m ↦ some (m.addToolCall call)) parentId origin = some s.messages

/-- A tool call that no message holds is added without failure. -/
theorem exists_openToolCall (h : ∀ m ∈ s.messages, m.findToolCall? callId = none)
    (callName : String) (requested : Option String) :
    let resolved := (s.resolveParent requested).2.1
    (∀ m ∈ resolved.messages, m.findToolCall? callId = none) ∧
      ∃ parentId parent messages notices,
        Message.find? resolved.messages parentId = some parent ∧
          Message.modify? (fun m ↦ some (m.addToolCall (.new callId callName))) parentId
            resolved.messages = some messages ∧
          s.openToolCall callId callName requested =
            ⟨{ resolved with messages }, notices, .ok parentId⟩ := by
  intro resolved
  have hresolved : ∀ m ∈ resolved.messages, m.findToolCall? callId = none := by
    intro m hm
    rcases (s.find?_resolveParent requested).2.2 m hm with hm | hnil
    · exact h m hm
    · rw [Message.findToolCall?, hnil]
      rfl
  refine ⟨hresolved, ?_⟩
  obtain ⟨parent, hparent, ⟨hcall, -⟩ | ⟨-, messages, hmessages, heq⟩⟩ :=
    s.openToolCall_cases callId callName requested
  · exact absurd (hresolved parent (Message.mem_of_find? hparent)) hcall
  · exact ⟨_, parent, messages, _, hparent, hmessages, heq⟩

/-- Both searches find the call that was added, and add to it alike. -/
theorem CallInStep.exists_appendArguments? {origin : List Message} {parentId : String}
    {parent : Message} (h : CallInStep origin callId parentId s t)
    (horigin : ∀ m ∈ origin, m.findToolCall? callId = none)
    (hparent : Message.find? origin parentId = some parent) (delta : String) :
    ∃ messages, s.appendArguments? callId delta = some messages ∧
      t.appendArguments? callId delta = some messages ∧
      ∃ call : ToolCall, call.id = callId ∧
        Message.modify? (fun m ↦ some (m.addToolCall call)) parentId origin = some messages := by
  obtain ⟨call, rfl, hadded⟩ := h.added
  have hlacks : parent.findToolCall? call.id = none :=
    horigin parent (Message.mem_of_find? hparent)
  obtain ⟨messages, hmessages, hagain⟩ := Message.exists_modify?_addToolCall hparent hlacks delta
  refine ⟨messages, ?_, ?_, call.append delta, rfl, hmessages⟩
  · rw [appendArguments?, h.closed, ← hagain]
    refine Message.modifyNewest?_of_modify? hadded fun m hm ↦ ?_
    exact Message.appendArguments?_eq_none_iff.2 (horigin m hm)
  · rw [appendArguments?, h.parent, ← h.messages, ← hagain]
    exact Message.modify?_of_modify? hadded fun _ ↦ rfl

theorem becomes_callPiece (h : s.appendArguments? callId delta = some messages) :
    s.Becomes (.toolCallChunk callId name requested delta) { s with messages } := by
  have heq : s.apply (.toolCallChunk callId name requested delta) =
      { session := { s with messages }, notices := [.messagesChanged messages] } :=
    chunkCall_of_some h name requested
  rw [Becomes, heq]
  exact ⟨⟨"", rfl⟩, rfl⟩

theorem becomes_callPart (h : s.appendArguments? callId delta = some messages) :
    s.Becomes (.toolCallArgs callId delta)
      { s with
        argumentBuffers := (s.argumentBuffers.appendText callId delta).2
        messages } := by
  refine ⟨⟨_, rfl⟩, ?_⟩
  simp only [apply, continueCall, h, Option.getD_some]

/-- The first piece does the same where the call has been added for it. -/
theorem exists_becomes_callPiece {opened : Session} {notices : List Notice} {parentId : String}
    (hnone : s.appendArguments? callId delta = none)
    (hopen : s.openToolCall callId (name.getD "") requested = ⟨opened, notices, .ok parentId⟩)
    (hfound : opened.appendArguments? callId delta = some messages) :
    s.Becomes (.toolCallChunk callId name requested delta) { opened with messages } ∧
      opened.Becomes (.toolCallChunk callId name requested delta) { opened with messages } := by
  have heq : s.apply (.toolCallChunk callId name requested delta) =
      opened.chunkArguments callId delta notices := by
    have hok : (s.openToolCall callId (name.getD "") requested).outcome = .ok parentId := by
      rw [hopen]
    refine (chunkCall_of_ok hnone hok).trans ?_
    rw [hopen]
  refine ⟨⟨⟨"", ?_⟩, ?_⟩, becomes_callPiece hfound⟩
  · rw [heq]
    rfl
  · rw [heq, chunkArguments, hfound, Option.getD_some]

theorem handlesAlike_call (s : Session) (h : ∀ m ∈ s.messages, m.findToolCall? callId = none)
    (hclosed : s.callParents.has callId = false) (name requested : Option String)
    {deltas : List String} (hdeltas : deltas ≠ []) :
    s.HandlesAlike (.call callId name requested) deltas := by
  have hclosed : s.callParents.get? callId = none := by
    rwa [Dict.has, Option.isSome_eq_false_iff, Option.isNone_iff_eq_none] at hclosed
  have hnone (delta : String) : s.appendArguments? callId delta = none := by
    rw [appendArguments?, hclosed]
    exact Message.modifyNewest?_eq_none_iff.2 fun m hm ↦
      Message.appendArguments?_eq_none_iff.2 (h m hm)
  obtain ⟨horigin, parentId, parent, messages, notices, hparent, hmessages, hopen⟩ :=
    exists_openToolCall h (name.getD "") requested
  have hok : (s.openToolCall callId (name.getD "") requested).outcome = .ok parentId := by
    rw [hopen]
  have hsame := s.sameBuffers_openToolCall callId (name.getD "") requested
  rw [hopen] at hsame
  -- a stream that has begun differs from the session with the call in the two tables only
  have hbegun : CallInStep (s.resolveParent requested).2.1.messages callId parentId
      { (s.resolveParent requested).2.1 with messages }
      (s.startCall callId (name.getD "") requested).session := by
    rw [startCall_of_ok hok, hopen]
    exact ⟨(congrArg (·.get? callId) hsame.callParents).trans hclosed,
      Dict.get?_insert_self _ _ _, rfl, rfl, _, rfl, hmessages⟩
  refine handlesAlike_of_inStep (R := CallInStep (s.resolveParent requested).2.1.messages callId
    parentId) ?_ ⟨_, ⟨⟨"", ?_⟩, rfl⟩, hbegun⟩ ?_ ?_ hdeltas
  · intro delta
    obtain ⟨gained, hgained, -⟩ := hbegun.exists_appendArguments? horigin hparent delta
    exact ⟨_, exists_becomes_callPiece (hnone delta) hopen hgained⟩
  · change (s.startCall callId (name.getD "") requested).outcome = _
    rw [startCall_of_ok hok]
  · intro s t delta hst
    obtain ⟨gained, hs, ht, hadded⟩ := hst.exists_appendArguments? horigin hparent delta
    exact ⟨_, _, becomes_callPiece hs, becomes_callPart ht,
      hst.closed, hst.parent, rfl, hst.ids, hadded⟩
  · intro s t hst
    exact ⟨_, ⟨⟨_, rfl⟩, rfl⟩, hst.messages, hst.ids⟩

/-! ## Both forms -/

/-- A piece touches no buffer, whether or not it is applied. -/
theorem sameBuffers_handle_piece (s : Session) (subscribers : List (Subscriber σ)) {e : Event}
    (he : e.kind.isPiece = true) (memory : σ) :
    SameBuffers s (s.handle subscribers e memory).session := by
  rw [handle_session]
  split
  · cases hkind : e.kind with
    | textMessageChunk id role delta => exact s.sameBuffers_chunkText id role delta
    | toolCallChunk callId name requested delta =>
      exact s.sameBuffers_chunkCall callId name requested delta
    | _ =>
      rw [hkind] at he
      cases he
  · exact .refl s

/-- **Two forms of the same content.** Let there be something to send. A text message with an
identifier may be sent as a stream or in pieces of an assistant, whether or not it is there
already. A tool call that no message holds and that is not open may be sent as a stream or in
pieces, with any name and parent or without. All events are handled without failure, and both forms
lead to the same messages and draw the same identifiers. No piece opens, changes or closes a
buffer. -/
theorem handlesAlike_contentForms (s : Session) (deltas : List String) (hdeltas : deltas ≠ []) :
    (∀ (id : String) (startRole : Role) (role : Option Role), id ≠ "" →
        role = none ∨ role = some .assistant → s.HandlesAlike (.text id startRole role) deltas) ∧
      (∀ (callId : String) (name parent : Option String),
        (∀ m ∈ s.messages, m.findToolCall? callId = none) → s.callParents.has callId = false →
          s.HandlesAlike (.call callId name parent) deltas) ∧
      ∀ (subscribers : List (Subscriber σ)) (e : Event) (memory : σ), e.kind.isPiece = true →
        SameBuffers s (s.handle subscribers e memory).session :=
  ⟨fun _ startRole _ hid hrole ↦ handlesAlike_text hid hrole s startRole hdeltas,
    fun _ name parent hlacks hclosed ↦ s.handlesAlike_call hlacks hclosed name parent hdeltas,
    fun subscribers _ memory he ↦ s.sameBuffers_handle_piece subscribers he memory⟩

/-- A message that is there already, with its buffer open, and a tool call for which a message is
added under an identifier that is drawn. An event that is a piece leaves the open buffer alone. -/
theorem handlesAlike_contentForms_drawn :
    let s : Session :=
      { messages := [{ id := "u", role := .user, content := "?" }], textBuffers := [("u", "x")] }
    let deltas := ["1", "", "2"]
    let e : Event := { kind := .textMessageChunk "u" none "1", timestamp := 0 }
    deltas ≠ [] ∧ (∀ m ∈ s.messages, m.findToolCall? "t" = none) ∧
      s.callParents.has "t" = false ∧ s.HandlesAlike (.text "u" .system none) deltas ∧
      s.HandlesAlike (.call "t" (some "f") none) deltas ∧
      (s.handle [] e ()).session.textBuffers = [("u", "x")] := by
  intro s deltas e
  have hdeltas : deltas ≠ [] := List.cons_ne_nil _ _
  have hlacks : ∀ m ∈ s.messages, m.findToolCall? "t" = none := by decide
  obtain ⟨htext, hcall, hbuffers⟩ := handlesAlike_contentForms s deltas hdeltas
  exact ⟨hdeltas, hlacks, rfl, htext "u" .system none (by decide) (.inl rfl),
    hcall "t" (some "f") none hlacks rfl, (hbuffers [] e () rfl).textBuffers⟩

end Session

end AgentSession
