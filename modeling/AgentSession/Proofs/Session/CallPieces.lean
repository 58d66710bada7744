import AgentSession.Proofs.Session.Effects
import AgentSession.Proofs.Session.Operation
/-!
# Pieces of tool calls

A piece of a tool call brings arguments for a call that may not be there yet. The call is looked
for, is added if it is not found, and is looked for again, to be given the arguments. This module
says when the second look finds what was added, so that no arguments are lost.

## Calls that have gone astray

An open call is looked for in the message that it was started in and nowhere else. If a list of
messages without the call has replaced the messages since, the first look finds nothing. The call is
then added to the message that the piece asks for, but the second look is again for the message of
the start. Unless the two are the same, the arguments are lost (`Session.Astray`). That is the only
way to lose any: `Session.gains_handle_chunk`.
-/

namespace AgentSession

variable {σ : Type}

namespace Message

variable {m m' : Message} {callId delta : String} {call call' : ToolCall}

/-- In a message that held no call with an identifier, there is only the one that was added. -/
theorem eq_of_mem_addToolCall (h : m.findToolCall? callId = none)
    (hmem : call' ∈ (m.addToolCall call).toolCalls) (hid : call'.id = callId) : call' = call := by
  rcases List.mem_append.1 hmem with hold | hnew
  · exact absurd hid (findToolCall?_eq_none_iff.1 h call' hold)
  · exact List.mem_singleton.1 hnew

theorem exists_appendArguments?_addToolCall (m : Message) (call : ToolCall) (delta : String) :
    ∃ m', appendArguments? call.id delta (m.addToolCall call) = some m' := by
  rw [← Option.ne_none_iff_exists', Ne, appendArguments?_eq_none_iff, findToolCall?_eq_none_iff]
  intro h
  exact h call (List.mem_append_right m.toolCalls (List.mem_singleton_self call)) rfl

end Message

namespace Session

variable {s s' : Session} {callId delta : String} {name requested : Option String}

/-- Afterwards some message holds the tool call with more arguments: those that it had before in
that message, followed by `delta`, or `delta` alone if it was not there. -/
def Gains (s s' : Session) (callId delta : String) : Prop :=
  ∃ m' ∈ s'.messages, ∃ call' ∈ m'.toolCalls, call'.id = callId ∧
    ((∃ m ∈ s.messages, m.id = m'.id ∧ ∃ call ∈ m.toolCalls, call' = call.append delta) ∨
      ((∀ m, Message.find? s.messages m'.id = some m → m.findToolCall? callId = none) ∧
        call'.function.arguments = delta))

/-- A tool call is open, but the message that it was started in does not hold it, and a call that is
added now goes to another message. -/
def Astray (s : Session) (callId : String) (requested : Option String) : Prop :=
  ∃ parentId, s.callParents.get? callId = some parentId ∧
    (∀ m, Message.find? s.messages parentId = some m → m.findToolCall? callId = none) ∧
    (s.resolveParent requested).1 ≠ parentId

/-! ## A call that was added -/

/-- A tool call was added to a message that did not hold it, and that is `parent` without it. -/
structure Opened (s s' : Session) (call : ToolCall) (parent : Message) : Prop where
  callParents : s'.callParents = s.callParents
  findToolCall?_eq_none : parent.findToolCall? call.id = none
  eq_parent : ∀ m, Message.find? s.messages parent.id = some m → m = parent
  find?_self : Message.find? s'.messages parent.id = some (parent.addToolCall call)
  find?_other : ∀ other, other ≠ parent.id →
    Message.find? s'.messages other = Message.find? s.messages other
  mem : ∀ m ∈ s'.messages, m ∈ s.messages ∨ m.toolCalls = [] ∨ m = parent.addToolCall call

theorem find?_resolveParent (s : Session) (requested : Option String) :
    let resolved := (s.resolveParent requested).2.1
    (∀ id m, Message.find? s.messages id = some m → Message.find? resolved.messages id = some m) ∧
      (∀ other, other ≠ (s.resolveParent requested).1 →
        Message.find? resolved.messages other = Message.find? s.messages other) ∧
      ∀ m ∈ resolved.messages, m ∈ s.messages ∨ m.toolCalls = [] := by
  intro resolved
  rcases s.resolveParent_cases requested with ⟨id, -, heq⟩ | ⟨id, ids, heq, -⟩
  · have hresolved : resolved = s := congrArg (fun p ↦ p.2.1) heq
    rw [hresolved]
    exact ⟨fun _ _ hm ↦ hm, fun _ _ ↦ rfl, fun _ ↦ .inl⟩
  · have hmessages : resolved.messages = s.messages ++ [{ id, role := .assistant }] :=
      congrArg (fun p ↦ p.2.1.messages) heq
    have happend (other : String) : Message.find? resolved.messages other =
        (Message.find? s.messages other).or
          (Message.find? [{ id, role := .assistant }] other) := by
      rw [hmessages]
      exact List.find?_append
    refine ⟨fun other m hm ↦ ?_, fun other hother ↦ ?_, fun m hm ↦ ?_⟩
    · rw [happend, hm, Option.some_or]
    · rw [heq] at hother
      have hnone : Message.find? [{ id, role := .assistant }] other = none := by
        rw [Message.find?_cons, if_neg (Ne.symm hother)]
        rfl
      rw [happend, hnone, Option.or_none]
    · rw [hmessages] at hm
      rcases List.mem_append.1 hm with hm | hm
      · exact .inl hm
      · rw [List.mem_singleton.1 hm]
        exact .inr rfl

theorem exists_opened {callName parentId : String}
    (h : (s.openToolCall callId callName requested).outcome = .ok parentId) :
    ∃ parent, parent.id = parentId ∧ parentId = (s.resolveParent requested).1 ∧
      Opened s (s.openToolCall callId callName requested).session (.new callId callName)
        parent := by
  obtain ⟨hfound, hother, hmem⟩ := s.find?_resolveParent requested
  have hparents : (s.resolveParent requested).2.1.callParents = s.callParents := by
    rcases s.resolveParent_cases requested with ⟨id, -, heq⟩ | ⟨id, ids, heq, -⟩ <;> rw [heq]
  obtain ⟨parent, hparent, ⟨-, heq⟩ | ⟨hnone, messages, hmessages, heq⟩⟩ :=
    s.openToolCall_cases callId callName requested
  · rw [heq] at h
    cases h
  · have hid := Message.id_of_find? hparent
    -- the list with the call in it, told by what is found in it and by its members
    obtain ⟨messages', hmodify, -, hfind⟩ := Message.exists_modify?
      (f := fun m ↦ some (m.addToolCall (.new callId callName))) hparent rfl rfl
    obtain rfl : messages = messages' := Option.some.inj (hmessages.symm.trans hmodify)
    rw [heq] at h ⊢
    obtain rfl := Except.ok.inj h
    refine ⟨parent, hid, rfl, hparents, hnone, fun m hm ↦ ?_, ?_, fun other hne ↦ ?_, fun m hm ↦ ?_⟩
    · have hm' := hfound parent.id m hm
      rw [hid, hparent] at hm'
      exact (Option.some.inj hm').symm
    · rw [hfind, if_pos hid]
    · rw [hid] at hne
      rw [hfind, if_neg hne, hother other hne]
    · obtain ⟨before, old, new, after, hbefore, hafter, hold, hnew⟩ :=
        Message.changed_of_modify? hmessages
      have hsame (n : Message) (hn : n ∈ before ++ old :: after) :
          n ∈ s.messages ∨ n.toolCalls = [] ∨ n = parent.addToolCall (.new callId callName) :=
        (hmem n (hbefore ▸ hn)).imp_right .inl
      rw [hafter] at hm
      rcases List.mem_append.1 hm with hm | hm
      · exact hsame m (List.mem_append_left _ hm)
      · rcases List.mem_cons.1 hm with rfl | hm
        · obtain rfl : old = parent := Option.some.inj (hold.symm.trans hparent)
          exact .inr (.inr (Option.some.inj hnew).symm)
        · exact hsame m (List.mem_append_right _ (List.mem_cons_of_mem old hm))

/-! ## The second look -/

/-- The second look finds the message that a call was added to, unless the call is open and belongs
to another message. -/
theorem Opened.exists_changed {call : ToolCall} {parent : Message} (h : Opened s s' call parent)
    (hnone : s.appendArguments? call.id delta = none)
    (hparent : ∀ parentId, s.callParents.get? call.id = some parentId → parentId = parent.id) :
    ∃ messages, s'.appendArguments? call.id delta = some messages ∧
      Message.Changed (fun m m' ↦ m = parent.addToolCall call ∧
        Message.appendArguments? call.id delta m = some m') s'.messages messages := by
  obtain ⟨new, hnew⟩ := parent.exists_appendArguments?_addToolCall call delta
  rw [appendArguments?] at hnone ⊢
  rw [h.callParents]
  cases hrecorded : s.callParents.get? call.id with
  | some parentId =>
    obtain rfl := hparent parentId hrecorded
    have hid := (Message.ids_of_appendArguments? hnew).1
    obtain ⟨messages, hmessages, -⟩ := Message.exists_modify? h.find?_self hnew hid
    refine ⟨messages, hmessages, (Message.changed_of_modify? hmessages).imp ?_⟩
    rintro m m' ⟨hfind, hm⟩
    exact ⟨Option.some.inj (hfind.symm.trans h.find?_self), hm⟩
  | none =>
    rw [hrecorded] at hnone
    have hold := Message.modifyNewest?_eq_none_iff.1 hnone
    obtain ⟨messages, hmessages⟩ : ∃ messages,
        Message.modifyNewest? (Message.appendArguments? call.id delta) s'.messages =
          some messages := by
      refine Option.ne_none_iff_exists'.1 fun hsecond ↦ Option.some_ne_none new ?_
      rw [← hnew]
      exact Message.modifyNewest?_eq_none_iff.1 hsecond _ (Message.mem_of_find? h.find?_self)
    refine ⟨messages, hmessages, (Message.changed_of_modifyNewest? hmessages).of_mem.imp ?_⟩
    rintro m m' ⟨hmem, hm⟩
    refine ⟨?_, hm⟩
    -- no message that was there before holds the call, so it is the new one that was changed
    obtain ⟨before, found, after, hcalls, -, -⟩ := Message.exists_of_appendArguments? hm
    rcases h.mem m hmem with hmem | hnil | heq
    · rw [hold m hmem] at hm
      cases hm
    · rw [hnil] at hcalls
      exact absurd hcalls.symm (List.append_ne_nil_of_right_ne_nil before (List.cons_ne_nil _ _))
    · exact heq

/-- If the second look finds what was added, the new call has the arguments of the piece. -/
theorem Opened.gains {call : ToolCall} {parent : Message} (h : Opened s s' call parent)
    (hnone : s.appendArguments? call.id delta = none)
    (hparent : ∀ parentId, s.callParents.get? call.id = some parentId → parentId = parent.id)
    (harguments : call.function.arguments = "") (notices : List Notice) :
    s.Gains (s'.chunkArguments call.id delta notices).session call.id delta := by
  obtain ⟨messages, hmessages, hchanged⟩ := h.exists_changed hnone hparent
  obtain ⟨m, hm, m', hm', rfl, happend⟩ := hchanged.exists_mem
  obtain ⟨before, found, after, hcalls, hid, rfl⟩ := Message.exists_of_appendArguments? happend
  have hfound : found ∈ (parent.addToolCall call).toolCalls :=
    hcalls ▸ List.mem_append_right before List.mem_cons_self
  obtain rfl := Message.eq_of_mem_addToolCall h.findToolCall?_eq_none hfound hid
  have hsession : (s'.chunkArguments found.id delta notices).session.messages = messages := by
    rw [chunkArguments, hmessages, Option.getD_some]
  refine ⟨_, hsession ▸ hm', found.append delta, List.mem_append_right before List.mem_cons_self,
    rfl, .inr ⟨fun m hm ↦ ?_, ?_⟩⟩
  · rw [h.eq_parent m hm]
    exact h.findToolCall?_eq_none
  · rw [ToolCall.append, harguments, String.empty_append]

theorem gains_of_appendArguments? {messages : List Message}
    (h : s.appendArguments? callId delta = some messages) :
    s.Gains { s with messages } callId delta := by
  obtain ⟨m, hm, m', hm', happend⟩ := (changed_of_appendArguments? h).exists_mem
  obtain ⟨before, call, after, hcalls, hid, rfl⟩ := Message.exists_of_appendArguments? happend
  refine ⟨_, hm', call.append delta, List.mem_append_right before List.mem_cons_self, hid,
    .inl ⟨m, hm, rfl, call, ?_, rfl⟩⟩
  rw [hcalls]
  exact List.mem_append_right before List.mem_cons_self

/-- A call that was added, and not found again, gains nothing. -/
theorem Opened.not_gains {call : ToolCall} {parent : Message} (h : Opened s s' call parent)
    (hdistinct : Message.Distinct s.messages) (hdelta : delta ≠ "")
    (harguments : call.function.arguments = "") : ¬s.Gains s' call.id delta := by
  rintro ⟨m', hm', call', hcall', hid, hgains⟩
  rcases h.mem m' hm' with hold | hnil | rfl
  · -- a message that is as it was has no other calls or arguments than before
    rcases hgains with ⟨m, hm, heq, other, hother, rfl⟩ | ⟨hnone, -⟩
    · obtain rfl : m = m' := List.inj_on_of_nodup_map hdistinct.ids hm hold heq
      have hsame : other.append delta = other :=
        List.inj_on_of_nodup_map (hdistinct.calls m hm) hcall' hother rfl
      exact hdelta (String.append_eq_left_iff.1 (congrArg (·.function.arguments) hsame))
    · have hfind := Message.find?_of_mem hdistinct.ids hold
      exact Message.findToolCall?_eq_none_iff.1 (hnone m' hfind) call' hcall' hid
  · rw [hnil] at hcall'
    cases hcall'
  · obtain rfl := Message.eq_of_mem_addToolCall h.findToolCall?_eq_none hcall' hid
    rcases hgains with ⟨m, -, -, other, -, rfl⟩ | ⟨-, heq⟩
    · exact hdelta (String.append_eq_empty_iff.1 harguments).2
    · exact hdelta (heq.symm.trans harguments)

/-! ## Pieces -/

theorem gains_chunkCall {text : String}
    (hok : (s.chunkCall callId name requested delta).outcome = .ok text)
    (h : ¬s.Astray callId requested) :
    s.Gains (s.chunkCall callId name requested delta).session callId delta := by
  cases hfirst : s.appendArguments? callId delta with
  | some messages =>
    rw [chunkCall_of_some hfirst]
    exact gains_of_appendArguments? hfirst
  | none =>
    cases hopen : (s.openToolCall callId (name.getD "") requested).outcome with
    | error failure =>
      rw [chunkCall_of_error hfirst hopen, hopen] at hok
      cases hok
    | ok parentId =>
      obtain ⟨parent, rfl, hid, hopened⟩ := exists_opened hopen
      rw [chunkCall_of_ok hfirst hopen]
      refine hopened.gains hfirst (fun recorded hrecorded ↦ ?_) rfl _
      -- the first look was for the recorded message, so that lacks the call
      refine Classical.byContradiction fun hne ↦ h ⟨recorded, hrecorded, fun m hm ↦ ?_, ?_⟩
      · rw [appendArguments?] at hfirst
        change s.callParents.get? callId = some recorded at hrecorded
        rw [hrecorded] at hfirst
        exact Message.appendArguments?_eq_none_iff.1 (Message.modify?_eq_none_iff.1 hfirst m hm)
      · rw [← hid]
        exact Ne.symm hne

theorem not_gains_chunkCall {text : String}
    (hok : (s.chunkCall callId name requested delta).outcome = .ok text)
    (h : s.Astray callId requested) (hdistinct : Message.Distinct s.messages)
    (hdelta : delta ≠ "") :
    ¬s.Gains (s.chunkCall callId name requested delta).session callId delta := by
  obtain ⟨recorded, hrecorded, hlacks, hne⟩ := h
  have hfirst : s.appendArguments? callId delta = none := by
    rw [appendArguments?, hrecorded]
    refine Message.modify?_eq_none_iff.2 fun m hm ↦ ?_
    exact Message.appendArguments?_eq_none_iff.2 (hlacks m hm)
  cases hopen : (s.openToolCall callId (name.getD "") requested).outcome with
  | error failure =>
    rw [chunkCall_of_error hfirst hopen, hopen] at hok
    cases hok
  | ok parentId =>
    obtain ⟨parent, rfl, hid, hopened⟩ := exists_opened hopen
    rw [chunkCall_of_ok hfirst hopen]
    -- the message of the start is still without the call, so the second look finds nothing either
    have hsecond : (s.openToolCall callId (name.getD "") requested).session.appendArguments? callId
        delta = none := by
      rw [appendArguments?, hopened.callParents, hrecorded]
      refine Message.modify?_eq_none_iff.2 fun m hm ↦ ?_
      rw [hopened.find?_other recorded (fun heq ↦ hne (hid ▸ heq.symm))] at hm
      exact Message.appendArguments?_eq_none_iff.2 (hlacks m hm)
    rw [Gains, chunkArguments, hsecond]
    exact hopened.not_gains hdistinct hdelta rfl

/-- A piece that is handled without a failure or a request to stop is applied without failure. -/
theorem chunkCall_of_handle_ok {subscribers : List (Subscriber σ)} {e : Event} {memory : σ}
    (hkind : e.kind = .toolCallChunk callId name requested delta) {m : Mutation}
    (hok : (s.handle subscribers e memory).outcome = .ok m) (hstop : m.stop = false) :
    (∃ text, (s.chunkCall callId name requested delta).outcome = .ok text) ∧
      (s.handle subscribers e memory).session =
        (s.chunkCall callId name requested delta).session := by
  obtain ⟨hpasses, text, htext⟩ := apply_ok_of_handle_ok hok hstop
  rw [handle_session, if_pos hpasses]
  rw [hkind] at htext ⊢
  exact ⟨⟨text, htext⟩, rfl⟩

/-- **Pieces of tool calls.** A piece that is handled without a failure or a request to stop reaches
its call, unless the call has gone astray. Then its arguments are lost. -/
theorem gains_handle_chunk (s : Session) (subscribers : List (Subscriber σ)) (e : Event)
    (memory : σ) (hkind : e.kind = .toolCallChunk callId name requested delta) {m : Mutation}
    (hok : (s.handle subscribers e memory).outcome = .ok m) (hstop : m.stop = false) :
    (¬s.Astray callId requested →
        s.Gains (s.handle subscribers e memory).session callId delta) ∧
      (s.Astray callId requested → Message.Distinct s.messages → delta ≠ "" →
        ¬s.Gains (s.handle subscribers e memory).session callId delta) := by
  obtain ⟨⟨text, htext⟩, hsession⟩ := chunkCall_of_handle_ok hkind hok hstop
  rw [hsession]
  exact ⟨gains_chunkCall htext, not_gains_chunkCall htext⟩

/-- A tool call loses its message to a new list, and a piece of it asks for that message again. -/
theorem gains_handle_chunk_again :
    let handled (kind : EventKind) : Operation Unit := .handle [] { kind, timestamp := 0 } ()
    let fresh : Session := {}
    let s := fresh.performAll
      [handled (.toolCallStart "t" "f" (some "p")), handled (.messagesSnapshot [])]
    let e : Event := { kind := .toolCallChunk "t" (some "f") (some "p") "x", timestamp := 0 }
    (s.handle [] e ()).outcome = .ok .nothing ∧ s.Gains (s.handle [] e ()).session "t" "x" := by
  intro handled fresh s e
  have hok : (s.handle [] e ()).outcome = .ok .nothing := rfl
  refine ⟨hok, (gains_handle_chunk s [] e () rfl hok rfl).1 ?_⟩
  rintro ⟨parentId, hparent, -, hne⟩
  have hp : s.callParents.get? "t" = some "p" := by decide
  exact hne (Option.some.inj (hp.symm.trans hparent))

/-- A tool call loses its message to a new list, and a piece of it asks for another message. The
call is added there, and the arguments of the piece are in no message. -/
theorem gains_handle_chunk_elsewhere :
    let handled (kind : EventKind) : Operation Unit := .handle [] { kind, timestamp := 0 } ()
    let fresh : Session := {}
    let s := fresh.performAll
      [handled (.toolCallStart "t" "f" (some "p")), handled (.messagesSnapshot [])]
    let e : Event := { kind := .toolCallChunk "t" (some "f") (some "q") "x", timestamp := 0 }
    (s.handle [] e ()).outcome = .ok .nothing ∧
      ¬s.Gains (s.handle [] e ()).session "t" "x" := by
  intro handled fresh s e
  refine ⟨rfl, ?_⟩
  have hempty : ∀ m ∈ (s.handle [] e ()).session.messages, ∀ call ∈ m.toolCalls,
      call.function.arguments = "" := by decide
  rintro ⟨m, hm, call, hcall, -, ⟨-, -, -, other, -, rfl⟩ | ⟨-, hx⟩⟩
  · have hx := (String.append_eq_empty_iff.1 (hempty m hm _ hcall)).2
    exact absurd hx (by decide)
  · exact absurd (hx.symm.trans (hempty m hm call hcall)) (by decide)

end Session

end AgentSession
