import AgentSession.Proofs.Session.CallPieces
import AgentSession.Proofs.Session.Growth
/-!
# Messages are only appended to

Unless an event brings a list of messages, every message stays where it is and keeps its header: its
identifier, its role, its name, and the tool call whose result it holds. An event does one of three
things to the messages. It leaves them as they are; it changes one of them, as `EventKind.Extends`
tells for each kind; or it adds one at the end, under an identifier that none of them has, as
`EventKind.Adds` tells (`Session.advances_apply`).

The one event that may do two things is a piece of a tool call that is not found. It adds the call,
perhaps to a message that it adds, and looks for it again. What it finds, if anything, is the call
that it added, so one message was changed once (`Session.exists_modify?_chunkCall`).
-/

namespace AgentSession

/-! ## What each kind of event may do -/

namespace Message

/-- What a message keeps for good: its identifier, its role, its name, and the tool call whose
result it holds. -/
def header (m : Message) : String × Role × Option String × Option String :=
  (m.id, m.role, m.name, m.toolCallId)

/-- One of the tool calls of a message has gained arguments. -/
def GainsArguments (callId delta : String) (m m' : Message) : Prop :=
  ∃ before call after, m.toolCalls = before ++ call :: after ∧ call.id = callId ∧
    m' = { m with toolCalls := before ++ call.append delta :: after }

end Message

namespace EventKind

/-- What a piece of a tool call that is not found may add: the call without arguments, or with those
of the piece. -/
def pieceCalls (callId : String) (name : Option String) (delta : String) : List ToolCall :=
  let call := ToolCall.new callId (name.getD "")
  [call, call.append delta]

/-- What an event may do to a message that is there: append text, add a tool call that it lacks, or
add arguments to one of its tool calls. -/
def Extends : EventKind → Message → Message → Prop
  | .textMessageContent _ delta, m, m' | .textMessageChunk _ _ delta, m, m'
  | .thinkingTextMessageContent delta, m, m' => m' = m.append delta
  | .toolCallStart callId name _, m, m' =>
    m.findToolCall? callId = none ∧ m' = m.addToolCall (.new callId name)
  | .toolCallArgs callId delta, m, m' => m.GainsArguments callId delta m'
  | .toolCallChunk callId name _ delta, m, m' =>
    m.GainsArguments callId delta m' ∨
      (m.findToolCall? callId = none ∧
        ∃ call ∈ pieceCalls callId name delta, m' = m.addToolCall call)
  | _, _, _ => False

/-- Which message an event may add. -/
def Adds : EventKind → Message → Prop
  | .textMessageStart id _, m => m = { id, role := .assistant }
  | .textMessageChunk _ role delta, m =>
    m = { id := m.id, role := role.getD .assistant, content := delta }
  | .thinkingTextMessageStart, m => m = { id := m.id, role := .assistant }
  | .toolCallStart callId name _, m =>
    m = { id := m.id, role := .assistant, toolCalls := [.new callId name] }
  | .toolCallChunk callId name _ delta, m =>
    ∃ call ∈ pieceCalls callId name delta,
      m = { id := m.id, role := .assistant, toolCalls := [call] }
  | .toolCallResult _ callId result, m => m = .toolResult m.id callId result
  | _, _ => False

/-- What an event does to the messages: nothing, or it changes one, or it adds one at the end with
an identifier that none has. -/
inductive Advances (k : EventKind) (ms : List Message) : List Message → Prop
  | same : Advances k ms ms
  | change {ms' : List Message} (h : Message.Changed k.Extends ms ms') : Advances k ms ms'
  | add {m : Message} (h : k.Adds m) (hid : m.id ∉ ms.map Message.id) : Advances k ms (ms ++ [m])

/-- A message that is changed keeps its header. -/
theorem Extends.header_eq {k : EventKind} {m m' : Message} (h : k.Extends m m') :
    m'.header = m.header := by
  have hgains {callId delta : String} (h : m.GainsArguments callId delta m') :
      m'.header = m.header := by
    obtain ⟨before, call, after, -, -, rfl⟩ := h
    rfl
  cases k with
  | textMessageContent id delta => rw [show m' = m.append delta from h]; rfl
  | textMessageChunk id role delta => rw [show m' = m.append delta from h]; rfl
  | thinkingTextMessageContent delta => rw [show m' = m.append delta from h]; rfl
  | toolCallStart callId name parent => rw [h.2]; rfl
  | toolCallArgs callId delta => exact hgains h
  | toolCallChunk callId name parent delta =>
    rcases h with h | ⟨-, call, -, rfl⟩
    · exact hgains h
    · rfl
  | _ => exact h.elim

end EventKind

namespace Session

variable {s : Session} {k : EventKind} {callId name delta : String} {requested : Option String}

open EventKind (Advances)

/-! ## Tool calls -/

/-- Where a tool call is added, its message is there and is changed, or is added with the call. -/
theorem advances_of_addToolCall {call : ToolCall} {parentId : String} {ms : List Message}
    (hextends : ∀ m, m.findToolCall? callId = none → k.Extends m (m.addToolCall call))
    (hadds : ∀ id, k.Adds { id, role := .assistant, toolCalls := [call] })
    (hfresh : (s.resolveParent requested).2.1.ids.drawn ≠ s.ids.drawn →
      (s.drawId .message).1 ∉ s.messages.map Message.id)
    {parent : Message} (hid : (s.resolveParent requested).1 = parentId)
    (hparent : Message.find? (s.resolveParent requested).2.1.messages parentId = some parent)
    (hlacks : parent.findToolCall? callId = none)
    (hmodify : Message.modify? (fun m ↦ some (m.addToolCall call)) parentId
      (s.resolveParent requested).2.1.messages = some ms) :
    Advances k s.messages ms := by
  rcases resolveParent_fresh hfresh with ⟨id, -, heq⟩ | ⟨id, ids, heq, hnew⟩
  · rw [heq] at hparent hmodify
    refine .change ((Message.changed_of_modify? hmodify).imp fun m m' ⟨hm, hadd⟩ ↦ ?_)
    obtain rfl := Option.some.inj hadd
    obtain rfl : m = parent := Option.some.inj (hm.symm.trans hparent)
    exact hextends m hlacks
  · rw [heq] at hid hmodify
    obtain rfl : id = parentId := hid
    have hconcat := Message.modify?_concat (m := { id, role := .assistant })
      (f := fun m ↦ some (m.addToolCall call)) hnew
    obtain rfl := Option.some.inj (hmodify.symm.trans hconcat)
    exact .add (hadds id) hnew

theorem advances_openToolCall
    (hextends : ∀ m, m.findToolCall? callId = none →
      k.Extends m (m.addToolCall (.new callId name)))
    (hadds : ∀ id, k.Adds { id, role := .assistant, toolCalls := [.new callId name] })
    (hfresh : (s.openToolCall callId name requested).session.ids.drawn ≠ s.ids.drawn →
      (s.drawId .message).1 ∉ s.messages.map Message.id) :
    Advances k s.messages (s.openToolCall callId name requested).session.messages := by
  cases hopen : (s.openToolCall callId name requested).outcome with
  | error failure =>
    rw [openToolCall_of_error hfresh hopen]
    exact .same
  | ok parentId =>
    obtain ⟨parent, hparent, ⟨-, heq⟩ | ⟨hlacks, messages, hmodify, heq⟩⟩ :=
      s.openToolCall_cases callId name requested
    · rw [heq] at hopen
      cases hopen
    · rw [heq] at hfresh ⊢
      exact advances_of_addToolCall hextends hadds hfresh rfl hparent hlacks hmodify

/-- The second look is for the message that the call was added to, or it finds nothing. -/
theorem appendArguments?_openToolCall {parentId : String}
    (hnone : s.appendArguments? callId delta = none)
    (hopen : (s.openToolCall callId name requested).outcome = .ok parentId) :
    (s.openToolCall callId name requested).session.appendArguments? callId delta =
        Message.modify? (fun m ↦ Message.appendArguments? callId delta
          (m.addToolCall (.new callId name))) parentId (s.resolveParent requested).2.1.messages ∨
      (s.openToolCall callId name requested).session.appendArguments? callId delta = none := by
  obtain ⟨opened, hid, rfl, hopened⟩ := exists_opened hopen
  obtain ⟨-, -, hresolved⟩ := s.find?_resolveParent requested
  have hparents := hopened.callParents
  obtain ⟨parent, hparent, ⟨-, heq⟩ | ⟨-, messages, hmodify, heq⟩⟩ :=
    s.openToolCall_cases callId name requested
  · rw [heq] at hopen
    cases hopen
  · rw [appendArguments?] at hnone ⊢
    rw [hparents]
    rw [heq] at hopened ⊢
    cases hrecorded : s.callParents.get? callId with
    | none =>
      rw [hrecorded] at hnone
      have hnever : ∀ m ∈ (s.resolveParent requested).2.1.messages,
          Message.appendArguments? callId delta m = none := by
        intro m hm
        rcases hresolved m hm with hm | hnil
        · exact Message.modifyNewest?_eq_none_iff.1 hnone m hm
        · rw [Message.appendArguments?, hnil]
          rfl
      exact .inl (Message.modifyNewest?_of_modify? hmodify hnever)
    | some recorded =>
      by_cases hsame : recorded = (s.resolveParent requested).1
      · rw [hsame]
        exact .inl (Message.modify?_of_modify? hmodify fun _ ↦ rfl)
      · rw [hrecorded] at hnone
        refine .inr (Message.modify?_eq_none_iff.2 fun m hm ↦ ?_)
        have hother := hopened.find?_other recorded (hid ▸ hsame)
        exact Message.modify?_eq_none_iff.1 hnone m (hother.symm.trans hm)

/-- If a piece of a tool call is not found and the call is added, one message is changed once. It
gains the call, with the arguments of the piece if the call is then found. -/
theorem exists_modify?_chunkCall {callName : Option String} {parentId : String}
    (hnone : s.appendArguments? callId delta = none)
    (hopen : (s.openToolCall callId (callName.getD "") requested).outcome = .ok parentId) :
    ∃ parent, Message.find? (s.resolveParent requested).2.1.messages parentId = some parent ∧
      parent.findToolCall? callId = none ∧ (s.resolveParent requested).1 = parentId ∧
      ∃ call ∈ EventKind.pieceCalls callId callName delta,
        Message.modify? (fun m ↦ some (m.addToolCall call)) parentId
            (s.resolveParent requested).2.1.messages =
          some (s.chunkCall callId callName requested delta).session.messages := by
  have hlook := appendArguments?_openToolCall hnone hopen
  rw [chunkCall_of_ok hnone hopen, chunkArguments]
  obtain ⟨parent, hparent, ⟨-, heq⟩ | ⟨hlacks, messages, hmodify, heq⟩⟩ :=
    s.openToolCall_cases callId (callName.getD "") requested
  · rw [heq] at hopen
    cases hopen
  · have hid : (s.resolveParent requested).1 = parentId := by
      rw [heq] at hopen
      exact Except.ok.inj hopen
    rw [hid] at hparent hmodify
    refine ⟨parent, hparent, hlacks, hid, ?_⟩
    rcases hlook with hfound | hmissed
    · have hcall : parent.findToolCall? (ToolCall.new callId (callName.getD "")).id = none := hlacks
      obtain ⟨gained, hgained, hagain⟩ := Message.exists_modify?_addToolCall hparent hcall delta
      have hsecond := hfound.trans hagain
      refine ⟨_, List.mem_cons_of_mem _ (List.mem_singleton_self _), ?_⟩
      dsimp only
      rw [hsecond, hgained, Option.getD_some]
    · refine ⟨_, List.mem_cons_self, ?_⟩
      dsimp only
      rw [hmissed, Option.getD_none, heq, hmodify]

theorem advances_chunkCall {callName : Option String}
    (hfresh : (s.chunkCall callId callName requested delta).session.ids.drawn ≠ s.ids.drawn →
      (s.drawId .message).1 ∉ s.messages.map Message.id) :
    Advances (.toolCallChunk callId callName requested delta) s.messages
      (s.chunkCall callId callName requested delta).session.messages := by
  cases hfound : s.appendArguments? callId delta with
  | some messages =>
    rw [chunkCall_of_some hfound]
    exact .change ((changed_of_appendArguments? hfound).imp fun m m' hm ↦
      .inl (Message.exists_of_appendArguments? hm))
  | none =>
    have hextends (call : ToolCall) (hcall : call ∈ EventKind.pieceCalls callId callName delta)
        (m : Message) (hm : m.findToolCall? callId = none) :
        (EventKind.toolCallChunk callId callName requested delta).Extends m (m.addToolCall call) :=
      .inr ⟨hm, call, hcall, rfl⟩
    have hadds (call : ToolCall) (hcall : call ∈ EventKind.pieceCalls callId callName delta)
        (id : String) : (EventKind.toolCallChunk callId callName requested delta).Adds
          { id, role := .assistant, toolCalls := [call] } := ⟨call, hcall, rfl⟩
    cases hopen : (s.openToolCall callId (callName.getD "") requested).outcome with
    | error failure =>
      rw [chunkCall_of_error hfound hopen] at hfresh ⊢
      exact advances_openToolCall (hextends _ List.mem_cons_self) (hadds _ List.mem_cons_self)
        hfresh
    | ok parentId =>
      obtain ⟨parent, hparent, hlacks, hid, call, hcall, hmodify⟩ :=
        exists_modify?_chunkCall hfound hopen
      refine advances_of_addToolCall (hextends call hcall) (hadds call hcall) ?_ hid hparent
        hlacks hmodify
      rw [chunkCall_of_ok hfound hopen] at hfresh
      obtain ⟨parent, -, ⟨-, heq⟩ | ⟨-, messages, -, heq⟩⟩ :=
        s.openToolCall_cases callId (callName.getD "") requested
      · rw [heq] at hopen
        cases hopen
      · rw [heq] at hfresh
        exact hfresh

/-! ## Text -/

theorem advances_appendTo {ms : List Message} {id : String}
    (hextends : ∀ m, k.Extends m (m.append delta))
    (h : Message.appendTo? s.messages id delta = some ms) : Advances k s.messages ms := by
  refine .change ((Message.changed_of_modify? h).imp fun m m' ⟨_, hm⟩ ↦ ?_)
  obtain rfl := Option.some.inj hm
  exact hextends m

theorem advances_chunkText (s : Session) (id : String) (role : Option Role) (delta : String) :
    Advances (.textMessageChunk id role delta) s.messages
      (s.chunkText id role delta).session.messages := by
  have hlocated : (s.chunkTarget id).2.messages = s.messages := by
    obtain ⟨ids, heq⟩ := s.chunkTarget_session id
    rw [heq]
  rw [← hlocated]
  rcases s.chunkText_cases id role delta with ⟨messages, happend, heq⟩ | ⟨hnone, heq⟩
  · rw [heq]
    exact advances_appendTo (fun _ ↦ rfl) happend
  · rw [heq]
    exact .add rfl (Message.notMem_of_appendTo?_eq_none hnone)

theorem advances_continueThinking (s : Session) (delta : String) :
    Advances (.thinkingTextMessageContent delta) s.messages
      (s.continueThinking delta).session.messages := by
  by_cases hnil : s.messages = []
  · rw [continueThinking_of_nil hnil]
    exact .same
  · have hlast : Advances (.thinkingTextMessageContent delta) s.messages
        (Message.appendToLast delta s.messages) :=
      .change (Message.changed_appendToLast delta hnil)
    cases hthinking : s.openThinking with
    | none =>
      rw [continueThinking_of_none hnil hthinking]
      exact hlast
    | some id =>
      rw [continueThinking_of_some hnil hthinking]
      exact hlast

/-! ## All kinds -/

theorem advances_startText (id : String) (role : Role) :
    Advances (.textMessageStart id role) s.messages (s.startText id).session.messages := by
  rw [(s.startText_eq id).2, Message.ensured]
  cases hhas : Message.has s.messages id with
  | true => exact .same
  | false => exact .add rfl (Message.has_eq_false_iff.1 hhas)

theorem advances_startCall
    (hfresh : (s.startCall callId name requested).session.ids.drawn ≠ s.ids.drawn →
      (s.drawId .message).1 ∉ s.messages.map Message.id) :
    Advances (.toolCallStart callId name requested) s.messages
      (s.startCall callId name requested).session.messages := by
  -- whether or not the call can be opened, no more becomes of the messages
  have hstart : (s.startCall callId name requested).session.messages =
        (s.openToolCall callId name requested).session.messages ∧
      (s.startCall callId name requested).session.ids =
        (s.openToolCall callId name requested).session.ids := by
    cases hopen : (s.openToolCall callId name requested).outcome with
    | error failure => rw [startCall_of_error hopen]; exact ⟨rfl, rfl⟩
    | ok parentId => rw [startCall_of_ok hopen]; exact ⟨rfl, rfl⟩
  rw [hstart.2] at hfresh
  rw [hstart.1]
  exact advances_openToolCall (fun m hm ↦ ⟨hm, rfl⟩) (fun _ ↦ rfl) hfresh

theorem advances_resultOfCall {messageId : Option String} {result : String}
    (hfresh : (s.resultOfCall messageId callId result).session.ids.drawn ≠ s.ids.drawn →
      (s.drawId .toolResult).1 ∉ s.messages.map Message.id) :
    Advances (.toolCallResult messageId callId result) s.messages
      (s.resultOfCall messageId callId result).session.messages := by
  rcases s.resultOfCall_cases messageId callId result with ⟨id, hid, heq⟩ | heq
  · rw [heq]
    exact .add rfl hid
  · rw [heq] at hfresh ⊢
    exact .add rfl (hfresh (Nat.succ_ne_self _))

/-- **One event.** Unless a list of messages replaces the old one, an event changes one message in
the way of its kind, or adds one of its kind at the end, or does neither. -/
theorem advances_apply (hk : ∀ messages, k ≠ .messagesSnapshot messages) (hfresh : s.DrawsFresh k) :
    Advances k s.messages (s.apply k).session.messages := by
  cases k with
  | textMessageStart id role => exact advances_startText id role
  | textMessageContent id delta =>
    change Advances _ _ ((Message.appendTo? s.messages id delta).getD s.messages)
    cases happend : Message.appendTo? s.messages id delta with
    | none => exact .same
    | some messages => exact advances_appendTo (fun _ ↦ rfl) happend
  | textMessageChunk id role delta => exact s.advances_chunkText id role delta
  | thinkingTextMessageStart => exact .add rfl (hfresh (Nat.succ_ne_self _) .thinking rfl)
  | thinkingTextMessageContent delta => exact s.advances_continueThinking delta
  | thinkingTextMessageEnd =>
    change Advances _ _ s.endThinking.session.messages
    cases hthinking : s.openThinking with
    | none =>
      rw [endThinking_of_none hthinking]
      exact .same
    | some id =>
      rw [endThinking_of_some hthinking]
      exact .same
  | toolCallStart callId name requested =>
    exact advances_startCall fun hdrawn ↦ hfresh hdrawn .message rfl
  | toolCallArgs callId delta =>
    change Advances _ _ ((s.appendArguments? callId delta).getD s.messages)
    cases happend : s.appendArguments? callId delta with
    | none => exact .same
    | some messages =>
      exact .change ((changed_of_appendArguments? happend).imp fun m m' hm ↦
        Message.exists_of_appendArguments? hm)
  | toolCallChunk callId callName requested delta =>
    exact advances_chunkCall fun hdrawn ↦ hfresh hdrawn .message rfl
  | toolCallResult messageId callId result =>
    exact advances_resultOfCall fun hdrawn ↦ hfresh hdrawn .toolResult rfl
  | stateDelta delta =>
    change Advances _ _ (s.patchState delta).session.messages
    rw [patchState]
    split
    · exact .same
    · exact .same
  | messagesSnapshot messages => exact absurd rfl (hk messages)
  | runFinished threadId runId result =>
    change Advances _ _ (if result.isNull then s else { s with result := some result }).messages
    split
    · exact .same
    · exact .same
  | _ => exact .same

end Session

/-! ## What is kept -/

namespace Message

variable {ms ms' ms'' : List Message}

/-- Messages with others after them, which have new identifiers. Those that were there may have
changed, but not in what they keep for good. -/
def Continues (ms ms' : List Message) : Prop :=
  ∃ kept added, ms' = kept ++ added ∧ kept.map header = ms.map header ∧
    ∀ m ∈ added, m.id ∉ ms.map Message.id

theorem Continues.refl (ms : List Message) : Continues ms ms :=
  ⟨ms, [], (List.append_nil ms).symm, rfl, List.forall_mem_nil _⟩

theorem ids_eq_of_headers_eq (h : ms'.map header = ms.map header) :
    ms'.map Message.id = ms.map Message.id := by
  have hids := congrArg (List.map Prod.fst) h
  rw [List.map_map, List.map_map] at hids
  exact hids

theorem Continues.trans (h : Continues ms ms') (h' : Continues ms' ms'') :
    Continues ms ms'' := by
  obtain ⟨kept, added, rfl, hkept, hadded⟩ := h
  obtain ⟨kept', later, rfl, hkept', hlater⟩ := h'
  -- what is kept of all is kept of the first and of what was added to them
  rw [List.map_append] at hkept'
  obtain ⟨first, rest, rfl, hfirst, hrest⟩ := List.map_eq_append_iff.1 hkept'
  refine ⟨first, rest ++ later, List.append_assoc .., hfirst.trans hkept, fun m hm hold ↦ ?_⟩
  rcases List.mem_append.1 hm with hm | hm
  · have hid : m.id ∈ added.map Message.id :=
      ids_eq_of_headers_eq hrest ▸ List.mem_map_of_mem hm
    obtain ⟨other, hother, heq⟩ := List.mem_map.1 hid
    exact hadded other hother (heq ▸ hold)
  · refine hlater m hm ?_
    rw [List.map_append, ids_eq_of_headers_eq hkept]
    exact List.mem_append_left _ hold

/-- The messages with new identifiers are those that come after the kept ones. -/
theorem filter_new {kept added : List Message} (hkept : kept.map header = ms.map header)
    (hadded : ∀ m ∈ added, m.id ∉ ms.map Message.id) :
    (kept ++ added).filter (fun m ↦ !(ms.map Message.id).contains m.id) = added := by
  have hnone : kept.filter (fun m ↦ !(ms.map Message.id).contains m.id) = [] := by
    refine List.filter_eq_nil_iff.2 fun m hm ↦ ?_
    have hid : m.id ∈ ms.map Message.id := ids_eq_of_headers_eq hkept ▸ List.mem_map_of_mem hm
    rw [List.contains_iff_mem.2 hid]
    exact Bool.false_ne_true
  have hall : added.filter (fun m ↦ !(ms.map Message.id).contains m.id) = added := by
    refine List.filter_eq_self.2 fun m hm ↦ ?_
    simpa using hadded m hm
  rw [List.filter_append, hnone, hall, List.nil_append]

end Message

/-- An event keeps every message in its place, and adds at most one. -/
theorem EventKind.Advances.exists_kept {k : EventKind} {ms ms' : List Message}
    (h : k.Advances ms ms') :
    ∃ kept added, ms' = kept ++ added ∧ kept.map Message.header = ms.map Message.header ∧
      added.length ≤ 1 ∧ ∀ m ∈ added, m.id ∉ ms.map Message.id := by
  cases h with
  | same => exact ⟨ms, [], (List.append_nil ms).symm, rfl, Nat.zero_le 1, List.forall_mem_nil _⟩
  | change h =>
    refine ⟨ms', [], (List.append_nil ms').symm, ?_, Nat.zero_le 1, List.forall_mem_nil _⟩
    obtain ⟨before, m, m', after, rfl, rfl, hm⟩ := h
    rw [List.map_append, List.map_append, List.map_cons, List.map_cons, hm.header_eq]
  | @add m h hid =>
    exact ⟨ms, [m], rfl, rfl, Nat.le_refl 1, List.forall_mem_singleton.2 hid⟩

theorem EventKind.Advances.continues {k : EventKind} {ms ms' : List Message}
    (h : k.Advances ms ms') : Message.Continues ms ms' := by
  obtain ⟨kept, added, hms', hkept, -, hadded⟩ := h.exists_kept
  exact ⟨kept, added, hms', hkept, hadded⟩

end AgentSession
