import AgentSession.Proofs.Session.Effects
/-!
# What subscribers are told

While an event is applied, and when a mutation is committed or a message received, the subscribers
are told of what happens. `Session.Announced` says how the notices go with the changes: a message
that is added is told of, a tool call that is added is told of, and so is every new state document.
Without a notice of its own, a session may only change in the text of its messages and in the
arguments of their tool calls. Where the subscribers are told the whole list of messages, that is
the list afterwards, and no tool call is added after that.

Whole lists of messages and messages with tool calls may be given from outside. What an event does
besides never adds a tool call without saying so (`Session.announced_apply`), so the tool calls that
are added are those that are told of (`Session.Announced.calls`).
-/

namespace AgentSession

/-- The tool call as it was when it was added, without arguments. -/
def ToolCall.bare (call : ToolCall) : ToolCall :=
  { call with function := { call.function with arguments := "" } }

namespace Message

variable {ms ms' : List Message} {m m' : Message} {id callId delta : String}
  {R : Message → Message → Prop}

/-- The tool calls of some messages, without their arguments. -/
def bareCalls (ms : List Message) : List ToolCall :=
  ms.flatMap fun m ↦ m.toolCalls.map ToolCall.bare

theorem bareCalls_append (ms ms' : List Message) :
    bareCalls (ms ++ ms') = bareCalls ms ++ bareCalls ms' :=
  List.flatMap_append

theorem bareCalls_cons (m : Message) (ms : List Message) :
    bareCalls (m :: ms) = m.toolCalls.map ToolCall.bare ++ bareCalls ms :=
  List.flatMap_cons

/-- The same messages but for their text and the arguments of their tool calls. -/
structure SameOutline (ms ms' : List Message) : Prop where
  ids : ms'.map Message.id = ms.map Message.id
  calls : bareCalls ms' = bareCalls ms

theorem SameOutline.refl (ms : List Message) : SameOutline ms ms := ⟨rfl, rfl⟩

theorem sameOutline_of_changed (h : Changed R ms ms')
    (hR : ∀ m m', R m m' →
      m'.id = m.id ∧ m'.toolCalls.map ToolCall.bare = m.toolCalls.map ToolCall.bare) :
    SameOutline ms ms' := by
  refine ⟨h.map_id fun m m' hm ↦ (hR m m' hm).1, ?_⟩
  obtain ⟨before, m, m', after, rfl, rfl, hm⟩ := h
  rw [bareCalls_append, bareCalls_append, bareCalls_cons, bareCalls_cons, (hR m m' hm).2]

theorem sameOutline_of_appendTo? (h : appendTo? ms id delta = some ms') : SameOutline ms ms' := by
  refine sameOutline_of_changed (changed_of_modify? h) fun m m' ⟨_, hm⟩ ↦ ?_
  obtain rfl := Option.some.inj hm
  exact ⟨rfl, rfl⟩

theorem sameOutline_appendToLast (ms : List Message) (delta : String) :
    SameOutline ms (appendToLast delta ms) := by
  by_cases hnil : ms = []
  · rw [hnil]
    exact .refl []
  · refine sameOutline_of_changed (changed_appendToLast delta hnil) fun m m' hm ↦ ?_
    rw [hm]
    exact ⟨rfl, rfl⟩

theorem bare_of_appendArguments? (h : appendArguments? callId delta m = some m') :
    m'.id = m.id ∧ m'.toolCalls.map ToolCall.bare = m.toolCalls.map ToolCall.bare := by
  obtain ⟨before, call, after, hcalls, -, rfl⟩ := exists_of_appendArguments? h
  have hbare : (call.append delta).bare = call.bare := rfl
  refine ⟨rfl, ?_⟩
  rw [hcalls, List.map_append, List.map_append, List.map_cons, List.map_cons, hbare]

/-- A tool call that is added to one message is one more tool call, wherever that message stands. -/
theorem perm_bareCalls_of_changed {call : ToolCall}
    (h : Changed (fun m m' ↦ m' = m.addToolCall call) ms ms') :
    (bareCalls ms').Perm (bareCalls ms ++ [call.bare]) := by
  obtain ⟨before, m, m', after, rfl, rfl, rfl⟩ := h
  have hadd : (m.addToolCall call).toolCalls.map ToolCall.bare =
      m.toolCalls.map ToolCall.bare ++ [call.bare] := List.map_append
  have hlast : ([call.bare] ++ bareCalls after).Perm (bareCalls after ++ [call.bare]) :=
    List.perm_append_comm
  simp only [bareCalls_append, bareCalls_cons, hadd, List.append_assoc]
  exact (hlast.append_left _).append_left _

end Message

namespace Session

open Message (SameOutline bareCalls)

variable {given : Prop} {ms ms' : List Message} {doc doc' : Json} {notices : List Notice}

/-! ## Changes and notices -/

/-- How some messages and a state document change, with the notices that tell of the changes. The
proposition `given` says whether messages may be given from outside, with tool calls or as a whole
list. -/
inductive Announced (given : Prop) (ms : List Message) (doc : Json) :
    List Notice → List Message → Json → Prop
  | silent {ms' : List Message} (h : SameOutline ms ms') : Announced given ms doc [] ms' doc
  | message {notices : List Notice} {ms' : List Message} {doc' : Json}
      (h : Announced given ms doc notices ms' doc') (m : Message)
      (hcalls : given ∨ m.toolCalls = []) :
      Announced given ms doc (notices ++ [.newMessage m]) (ms' ++ [m]) doc'
  | call {notices : List Notice} {ms' ms'' : List Message} {doc' : Json}
      (h : Announced given ms doc notices ms' doc') (call : ToolCall)
      (hnotices : ∀ told, .messagesChanged told ∉ notices)
      (hids : ms''.map Message.id = ms'.map Message.id)
      (hcalls : (bareCalls ms'').Perm (bareCalls ms' ++ [call.bare])) :
      Announced given ms doc (notices ++ [.newToolCall call]) ms'' doc'
  | messages {notices : List Notice} {ms' ms'' : List Message} {doc' : Json}
      (h : Announced given ms doc notices ms' doc') (hmessages : given ∨ SameOutline ms' ms'') :
      Announced given ms doc (notices ++ [.messagesChanged ms'']) ms'' doc'
  | state {notices : List Notice} {ms' : List Message} {doc' : Json}
      (h : Announced given ms doc notices ms' doc') (doc'' : Json) :
      Announced given ms doc (notices ++ [.stateChanged doc'']) ms' doc''

/-- The tool calls that some notices tell of, without arguments. -/
def announcedCalls (notices : List Notice) : List ToolCall :=
  notices.filterMap fun notice ↦
    match notice with
    | .newToolCall call => some call.bare
    | _ => none

theorem announcedCalls_append (notices notices' : List Notice) :
    announcedCalls (notices ++ notices') = announcedCalls notices ++ announcedCalls notices' :=
  List.filterMap_append

/-- Where nothing is given from outside, the tool calls that are added are those that are told
of. -/
theorem Announced.calls (h : Announced given ms doc notices ms' doc') (hgiven : ¬given) :
    (bareCalls ms').Perm (bareCalls ms ++ announcedCalls notices) := by
  induction h with
  | silent hsame =>
    rw [hsame.calls]
    exact .of_eq (List.append_nil _).symm
  | message _ m hcalls ih =>
    have hnone : m.toolCalls = [] := hcalls.resolve_left hgiven
    have hbare : bareCalls [m] = [] := by rw [Message.bareCalls_cons, hnone]; rfl
    rw [Message.bareCalls_append, hbare, List.append_nil, announcedCalls_append]
    exact ih.trans (.of_eq (congrArg _ (List.append_nil _).symm))
  | call _ call _ _ hcalls ih =>
    rw [announcedCalls_append, ← List.append_assoc]
    exact hcalls.trans (ih.append_right [call.bare])
  | messages _ hmessages ih =>
    have hsame := hmessages.resolve_left hgiven
    rw [hsame.calls, announcedCalls_append]
    exact ih.trans (.of_eq (congrArg _ (List.append_nil _).symm))
  | state _ doc'' ih =>
    rw [announcedCalls_append]
    exact ih.trans (.of_eq (congrArg _ (List.append_nil _).symm))

theorem Announced.refl (ms : List Message) (doc : Json) : Announced given ms doc [] ms doc :=
  .silent (.refl ms)

/-! ## Text and thinking messages -/

theorem announced_startText (s : Session) (id : String) :
    Announced given s.messages s.state (s.startText id).notices (s.startText id).session.messages
      (s.startText id).session.state := by
  unfold startText
  dsimp only
  split
  · exact .refl _ _
  · exact (Announced.refl s.messages s.state).message _ (.inr rfl)

theorem announced_chunkText (s : Session) (id : String) (role : Option Role) (delta : String) :
    Announced given s.messages s.state (s.chunkText id role delta).notices
      (s.chunkText id role delta).session.messages
      (s.chunkText id role delta).session.state := by
  obtain ⟨ids, hids⟩ := s.chunkTarget_session id
  rcases s.chunkText_cases id role delta with ⟨messages, happend, heq⟩ | ⟨-, heq⟩
  · rw [hids] at happend
    rw [heq, hids]
    have houtline := Message.sameOutline_of_appendTo? happend
    exact (Announced.refl s.messages s.state).messages (.inr houtline)
  · rw [heq, hids]
    exact ((Announced.refl s.messages s.state).message _ (.inr rfl)).messages (.inr (.refl _))

theorem announced_continueThinking (s : Session) (delta : String) :
    Announced given s.messages s.state (s.continueThinking delta).notices
      (s.continueThinking delta).session.messages (s.continueThinking delta).session.state := by
  by_cases hnil : s.messages = []
  · rw [continueThinking_of_nil hnil]
    exact .refl _ _
  · cases hthinking : s.openThinking with
    | none =>
      rw [continueThinking_of_none hnil hthinking]
      exact .silent (Message.sameOutline_appendToLast s.messages delta)
    | some id =>
      rw [continueThinking_of_some hnil hthinking]
      exact .silent (Message.sameOutline_appendToLast s.messages delta)

theorem announced_endThinking (s : Session) :
    Announced given s.messages s.state s.endThinking.notices s.endThinking.session.messages
      s.endThinking.session.state := by
  cases hthinking : s.openThinking with
  | none =>
    rw [endThinking_of_none hthinking]
    exact (Announced.refl s.messages s.state).messages (.inr (.refl _))
  | some id =>
    rw [endThinking_of_some hthinking]
    exact (Announced.refl s.messages s.state).messages (.inr (.refl _))

/-! ## Tool calls -/

theorem announced_resolveParent (s : Session) (given : Prop) (requested : Option String) :
    Announced given s.messages s.state (s.resolveParent requested).2.2
        (s.resolveParent requested).2.1.messages (s.resolveParent requested).2.1.state ∧
      ∀ told, .messagesChanged told ∉ (s.resolveParent requested).2.2 := by
  rcases s.resolveParent_cases requested with ⟨id, -, heq⟩ | ⟨id, ids, heq, -⟩
  · rw [heq]
    exact ⟨.refl _ _, fun _ ↦ List.not_mem_nil⟩
  · rw [heq]
    refine ⟨(Announced.refl s.messages s.state).message _ (.inr rfl), fun told hmem ↦ ?_⟩
    cases List.mem_singleton.1 hmem

theorem announced_openToolCall (s : Session) (given : Prop) (callId name : String)
    (requested : Option String) :
    Announced given s.messages s.state (s.openToolCall callId name requested).notices
      (s.openToolCall callId name requested).session.messages
      (s.openToolCall callId name requested).session.state := by
  obtain ⟨hresolved, hnotices⟩ := s.announced_resolveParent given requested
  obtain ⟨parent, -, ⟨-, heq⟩ | ⟨-, messages, hmessages, heq⟩⟩ :=
    s.openToolCall_cases callId name requested
  · rw [heq]
    exact hresolved
  · have hchanged := (Message.changed_of_modify? hmessages).imp fun _ _ hm ↦
      (Option.some.inj hm.2).symm
    rw [heq]
    have hids : messages.map Message.id = _ := hchanged.map_id fun m m' hm ↦ by rw [hm]; rfl
    exact hresolved.call _ hnotices hids (Message.perm_bareCalls_of_changed hchanged)

theorem sameOutline_appendArguments (s : Session) (callId delta : String) :
    SameOutline s.messages ((s.appendArguments? callId delta).getD s.messages) := by
  cases happend : s.appendArguments? callId delta with
  | none => exact .refl _
  | some messages =>
    exact Message.sameOutline_of_changed (changed_of_appendArguments? happend)
      fun _ _ ↦ Message.bare_of_appendArguments?

theorem announced_startCall (s : Session) (callId name : String) (requested : Option String) :
    Announced given s.messages s.state (s.startCall callId name requested).notices
      (s.startCall callId name requested).session.messages
      (s.startCall callId name requested).session.state := by
  have hopened := s.announced_openToolCall given callId name requested
  cases hopen : (s.openToolCall callId name requested).outcome with
  | error failure =>
    rw [startCall_of_error hopen]
    exact hopened
  | ok parentId =>
    rw [startCall_of_ok hopen]
    exact hopened

theorem announced_chunkCall (s : Session) (callId : String) (callName requested : Option String)
    (delta : String) :
    Announced given s.messages s.state (s.chunkCall callId callName requested delta).notices
      (s.chunkCall callId callName requested delta).session.messages
      (s.chunkCall callId callName requested delta).session.state := by
  have hopened := s.announced_openToolCall given callId (callName.getD "") requested
  cases hfound : s.appendArguments? callId delta with
  | some messages =>
    have hsame := s.sameOutline_appendArguments callId delta
    rw [hfound, Option.getD_some] at hsame
    rw [chunkCall_of_some hfound]
    exact (Announced.refl s.messages s.state).messages (.inr hsame)
  | none =>
    cases hopen : (s.openToolCall callId (callName.getD "") requested).outcome with
    | error failure =>
      rw [chunkCall_of_error hfound hopen]
      exact hopened
    | ok parentId =>
      rw [chunkCall_of_ok hfound hopen]
      exact hopened.messages (.inr (sameOutline_appendArguments _ callId delta))

theorem announced_resultOfCall (s : Session) (messageId : Option String) (callId result : String) :
    Announced given s.messages s.state (s.resultOfCall messageId callId result).notices
      (s.resultOfCall messageId callId result).session.messages
      (s.resultOfCall messageId callId result).session.state := by
  rcases s.resultOfCall_cases messageId callId result with ⟨id, -, heq⟩ | heq
  · rw [heq]
    exact ((Announced.refl s.messages s.state).message _ (.inr rfl)).messages (.inr (.refl _))
  · rw [heq]
    exact ((Announced.refl s.messages s.state).message _ (.inr rfl)).messages (.inr (.refl _))

/-! ## All changes -/

/-- **One event.** What an event does is announced, and only a list of messages that replaces the
old one is given from outside. -/
theorem announced_apply (s : Session) (k : EventKind) :
    Announced (∃ messages, k = .messagesSnapshot messages) s.messages s.state (s.apply k).notices
      (s.apply k).session.messages (s.apply k).session.state := by
  cases k with
  | textMessageStart id role => exact s.announced_startText id
  | textMessageContent id delta =>
    refine .silent ?_
    change SameOutline s.messages ((Message.appendTo? s.messages id delta).getD s.messages)
    cases happend : Message.appendTo? s.messages id delta with
    | none => exact .refl _
    | some messages => exact Message.sameOutline_of_appendTo? happend
  | textMessageEnd id => exact (Announced.refl s.messages s.state).messages (.inr (.refl _))
  | textMessageChunk id role delta => exact s.announced_chunkText id role delta
  | thinkingTextMessageStart =>
    exact (Announced.refl s.messages s.state).message _ (.inr rfl)
  | thinkingTextMessageContent delta => exact s.announced_continueThinking delta
  | thinkingTextMessageEnd => exact s.announced_endThinking
  | toolCallStart callId name requested => exact s.announced_startCall callId name requested
  | toolCallArgs callId delta => exact .silent (s.sameOutline_appendArguments callId delta)
  | toolCallEnd callId => exact (Announced.refl s.messages s.state).messages (.inr (.refl _))
  | toolCallChunk callId callName requested delta =>
    exact s.announced_chunkCall callId callName requested delta
  | toolCallResult messageId callId result =>
    exact s.announced_resultOfCall messageId callId result
  | stateSnapshot snapshot => exact (Announced.refl s.messages s.state).state _
  | stateDelta delta =>
    change Announced _ _ _ (s.patchState delta).notices (s.patchState delta).session.messages
      (s.patchState delta).session.state
    rw [patchState]
    cases s.store.patch delta with
    | error failure => exact .refl _ _
    | ok store => exact (Announced.refl s.messages s.state).state store.state
  | messagesSnapshot messages =>
    exact (Announced.refl s.messages s.state).messages (.inl ⟨messages, rfl⟩)
  | runFinished threadId runId result =>
    change Announced _ _ _ []
      (if result.isNull then s else { s with result := some result }).messages
      (if result.isNull then s else { s with result := some result }).state
    split
    · exact .refl _ _
    · exact .refl _ _
  | _ => exact .refl _ _

/-- What a mutation changes is announced when it is committed. -/
theorem announced_mutate (s : Session) (m : Mutation) :
    Announced True s.messages s.state (mutationNotices m) (s.mutate m).messages
      (s.mutate m).state := by
  have hmessages (messages : List Message) :
      Announced True s.messages s.state [.messagesChanged messages] messages s.state :=
    (Announced.refl s.messages s.state).messages (.inl trivial)
  rcases m with ⟨_ | messages, _ | doc, stop⟩
  · exact .refl _ _
  · exact (Announced.refl s.messages s.state).state doc
  · exact hmessages messages
  · exact (hmessages messages).state doc

theorem announced_addMessage (s : Session) (m : Message) :
    Announced True s.messages s.state [.newMessage m] (s.addMessage m).messages
      (s.addMessage m).state :=
  (Announced.refl s.messages s.state).message m (.inl trivial)

end Session

end AgentSession
