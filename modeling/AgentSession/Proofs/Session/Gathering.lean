import AgentSession.Proofs.Session.Interleaving
/-!
# Gathering interleaved streams

A session without subscribers that is sent interleaved streams handles every event, gathers each
stream, and is left with nothing open. What it holds in the end depends on the interleaving only in
the order of messages, and of tool calls within a message.
-/

namespace AgentSession

/-! ## The messages at the end -/

/-- The same message up to the order of its tool calls. -/
def Message.SameButOrder (m m' : Message) : Prop :=
  m' = { m with toolCalls := m'.toolCalls } ∧ m.toolCalls.Perm m'.toolCalls

namespace History

variable {h h' : History} {s : Session} {m : Message} {streams : List MessageStream}

/-- Histories that hold the same of each stream lead to the same messages, up to the order of tool
calls. -/
theorem rel_message? (hperm : h.Perm h') (habout : ∀ key, h.about key = h'.about key) (s : Session)
    (id : String) : Option.Rel Message.SameButOrder (h.message? s id) (h'.message? s id) := by
  have htext (id : String) : h.text id = h'.text id := by
    rw [← text_about, habout, text_about]
  have hcall : h.call = h'.call := by
    funext start
    rw [call, call, ← arguments_about h, habout, arguments_about]
  have hcalls (id : String) : (h.calls id).Perm (h'.calls id) := by
    rw [calls, calls, hcall]
    exact (hperm.filterMap _).map _
  have hbase : h.base? s id = h'.base? s id := by
    rw [base?, base?, touched, touched, hperm.any_eq]
  rw [message?, message?, hbase]
  cases h'.base? s id with
  | none => exact .none
  | some base =>
    refine .some ⟨?_, (hcalls base.id).append_left _⟩
    simp [grow, htext]

/-! ## Whole streams -/

theorem text_kinds (id : String) (role : Role) (deltas : List String) :
    text (MessageStream.text id role deltas).kinds id = String.join deltas := by
  simp [text, MessageStream.kinds, List.filterMap_append, List.filterMap_map, EventKind.textDelta?]

theorem arguments_kinds (callId name parent : String) (deltas : List String) :
    arguments (MessageStream.call callId name parent deltas).kinds callId = String.join deltas := by
  simp [arguments, MessageStream.kinds, List.filterMap_append, List.filterMap_map,
    EventKind.argumentsDelta?]

theorem starts_kinds (callId name parent : String) (deltas : List String) (id : String) :
    starts (MessageStream.call callId name parent deltas).kinds id =
      if parent = id then [(callId, name)] else [] := by
  by_cases hparent : parent = id <;>
    simp [starts, MessageStream.kinds, List.filterMap_append, List.filterMap_map,
      EventKind.startedIn?, hparent]

/-- At the end of an interleaving nothing is open. -/
theorem not_open_of_shuffle (hh : Shuffle (streams.map MessageStream.kinds) h) (id : String) :
    ¬h.TextOpen id ∧ ¬h.CallOpen id := by
  have hmem {stream : MessageStream} (hstream : stream ∈ streams) {k : EventKind}
      (hk : k ∈ stream.kinds) : k ∈ h :=
    hh.perm.mem_iff.2 (List.mem_flatten.2 ⟨_, List.mem_map_of_mem hstream, hk⟩)
  constructor
  · rintro ⟨⟨role, hstart⟩, hend⟩
    obtain ⟨stream, hstream, hk⟩ := exists_stream_of_mem hh hstart
    have hkey := MessageStream.key?_of_mem_kinds hk
    cases stream with
    | text id' role deltas =>
      cases hkey
      exact hend (hmem hstream (by simp [MessageStream.kinds]))
    | call => cases hkey
  · rintro ⟨⟨name, parent, hstart⟩, hend⟩
    obtain ⟨stream, hstream, hk⟩ := exists_stream_of_mem hh hstart
    have hkey := MessageStream.key?_of_mem_kinds hk
    cases stream with
    | text => cases hkey
    | call callId name parent deltas =>
      cases hkey
      exact hend (hmem hstream (by simp [MessageStream.kinds]))

end History

namespace Session

/-! ## Handling all events -/

/-- Handles events in order without subscribers, and commits what they ask for, up to the first
failure. -/
def handleEach (s : Session) : List Event → Except Failure Session
  | [] => .ok s
  | e :: events =>
    let handled := s.handle ([] : List (Subscriber Unit)) e ()
    match handled.outcome with
    | .error failure => .error failure
    | .ok m => (handled.session.mutate m).handleEach events

variable {s s₀ : Session} {h : History}

theorem handleEach_cons {e : Event} {text : String} (houtcome : (s.apply e.kind).outcome = .ok text)
    (events : List Event) :
    s.handleEach (e :: events) = (s.apply e.kind).session.handleEach events := by
  have hhandle : s.handle ([] : List (Subscriber Unit)) e () =
      ⟨(s.apply e.kind).session, (), .ok .nothing⟩ := by
    simp only [handle, Subscriber.askAll, houtcome]
    rfl
  rw [handleEach, hhandle]
  rfl

/-- **All events.** What the history admits event by event is handled without failure. -/
theorem Tracks.handleEach {events : List Event} (hs : Tracks s₀ h s)
    (hadmits : ∀ before e after, events = before ++ e :: after →
      (h ++ before.map Event.kind).Admits s₀ e.kind) :
    ∃ s', s.handleEach events = .ok s' ∧ Tracks s₀ (h ++ events.map Event.kind) s' := by
  induction events generalizing h s with
  | nil => exact ⟨s, rfl, by simpa using hs⟩
  | cons e events ih =>
    have he : h.Admits s₀ e.kind := by simpa using hadmits [] e events rfl
    obtain ⟨text, houtcome, hs⟩ := hs.apply he
    obtain ⟨s', hs', htracks⟩ := ih hs fun before e' after hsplit ↦ by
      simpa using hadmits (e :: before) e' after (by rw [hsplit, List.cons_append])
    exact ⟨s', (handleEach_cons houtcome events).trans hs', by simpa using htracks⟩

theorem tracks_nil (hids : (s.messages.map Message.id).Nodup) (hopen : s.hasOpenBuffers = false) :
    Tracks s [] s := by
  have hempty : s.textBuffers = [] ∧ s.argumentBuffers = [] := by
    simpa [hasOpenBuffers] using hopen
  have hholds {isOpen : String → Prop} (hnone : ∀ key, ¬isOpen key) :
      Dict.Holds ([] : Dict String) isOpen :=
    ⟨List.Pairwise.nil, fun key ↦ ⟨nofun, fun h ↦ absurd h (hnone key)⟩⟩
  refine ⟨hids, fun id ↦ (History.message?_nil s id).symm, ?_, ?_, nofun, ?_, nofun⟩
  · rw [hempty.1]
    exact hholds fun key hopen ↦ by simpa using hopen.1
  · exact List.nodup_nil
  · rw [hempty.2]
    exact hholds fun key hopen ↦ by simpa using hopen.1

/-! ## Gathered streams -/

theorem Tracks.gathered_text (hs : Tracks s₀ h s) {id : String} {role : Role} {deltas : List String}
    (habout : h.about (.text id) = (MessageStream.text id role deltas).kinds)
    (hnew : id ∉ s₀.messages.map Message.id) :
    (MessageStream.text id role deltas).Gathered s := by
  have hstart : .textMessageStart id role ∈ h.about (.text id) := habout ▸ List.mem_cons_self
  have htouched : h.touched id = true :=
    History.touched_of_mem (History.mem_about.1 hstart).1 (decide_eq_true rfl)
  have hmessage : h.message? s₀ id = some (h.grow { id, role := .assistant }) := by
    rw [History.message?, History.base?, Message.find?_eq_none hnew, Option.none_or, htouched,
      if_pos rfl, Option.map_some]
  refine ⟨_, (hs.find? id).trans hmessage, ?_⟩
  calc "" ++ h.text id = (h.about (.text id)).text id := by
        rw [String.empty_append, History.text_about]
    _ = String.join deltas := by rw [habout, History.text_kinds]

theorem Tracks.gathered_call (hs : Tracks s₀ h s) {callId name parent : String}
    {deltas : List String}
    (habout : h.about (.call callId) = (MessageStream.call callId name parent deltas).kinds)
    (hnew : ∀ m ∈ s₀.messages, ∀ call ∈ m.toolCalls, call.id ≠ callId) :
    (MessageStream.call callId name parent deltas).Gathered s := by
  have hstart : .toolCallStart callId name (some parent) ∈ h.about (.call callId) :=
    habout ▸ List.mem_cons_self
  obtain ⟨m, hm, -⟩ := hs.exists_find?
    (History.touched_of_mem (History.mem_about.1 hstart).1 (decide_eq_true rfl))
  refine ⟨⟨m, Message.mem_of_find? hm, Message.id_of_find? hm⟩, fun m hm ↦ ?_⟩
  have hmessage : h.message? s₀ m.id = some m :=
    (hs.find? m.id).symm.trans (Message.find?_of_mem hs.ids hm)
  obtain ⟨before, hcalls, hbefore⟩ := History.message?_toolCalls hmessage
  have hnone : before.filter (fun call ↦ call.id = callId) = [] := by
    refine List.filter_eq_nil_iff.2 fun call hcall ↦ ?_
    obtain ⟨m, hmem, hcall⟩ := hbefore call hcall
    simpa using hnew m hmem call hcall
  -- the starts are filtered first, since what a call has gathered does not change its identifier
  have hstarts : (h.starts m.id).filter (fun start ↦ start.1 = callId) =
      if parent = m.id then [(callId, name)] else [] := by
    rw [← History.starts_about, habout, History.starts_kinds]
  have hcall : h.call (callId, name) =
      { id := callId, function := { name, arguments := String.join deltas } } := by
    rw [History.call, ← History.arguments_about, habout, History.arguments_kinds]
  have hfilter : (h.calls m.id).filter (fun call ↦ call.id = callId) =
      ((h.starts m.id).filter fun start ↦ start.1 = callId).map h.call := List.filter_map
  rw [hcalls, List.filter_append, hnone, List.nil_append, hfilter, hstarts]
  by_cases hparent : m.id = parent
  · rw [if_pos hparent.symm, if_pos hparent, List.map_singleton, hcall]
  · rw [if_neg (Ne.symm hparent), if_neg hparent, List.map_nil]

/-- **Interleaved streams are gathered.** Let a session have distinct message identifiers and
nothing open, and let streams be new to it and distinct. However they are interleaved, every event
is handled without failure, every stream is gathered, message identifiers stay distinct, and nothing
is open in the end. The messages after two interleavings are the same up to their order and that of
tool calls within a message. -/
theorem exists_handleEach_of_shuffle (s : Session) (streams : List MessageStream)
    (hids : (s.messages.map Message.id).Nodup) (hopen : s.hasOpenBuffers = false)
    (hkeys : (streams.map MessageStream.key).Nodup) (hnew : ∀ stream ∈ streams, stream.IsNew s)
    {events : List Event}
    (hevents : Shuffle (streams.map MessageStream.kinds) (events.map Event.kind)) :
    ∃ s', s.handleEach events = .ok s' ∧ (s'.messages.map Message.id).Nodup ∧
      s'.hasOpenBuffers = false ∧ (∀ stream ∈ streams, stream.Gathered s') ∧
      ∀ events', Shuffle (streams.map MessageStream.kinds) (events'.map Event.kind) →
        ∃ s'', s.handleEach events' = .ok s'' ∧
          ∀ id, Option.Rel Message.SameButOrder (Message.find? s'.messages id)
            (Message.find? s''.messages id) := by
  -- said for every interleaving, because two of them are compared
  have htracks {events : List Event}
      (hevents : Shuffle (streams.map MessageStream.kinds) (events.map Event.kind)) :
      ∃ s', s.handleEach events = .ok s' ∧ Tracks s (events.map Event.kind) s' := by
    refine (tracks_nil hids hopen).handleEach fun before e after hsplit ↦ ?_
    have hsplit : Shuffle (streams.map MessageStream.kinds)
        (before.map Event.kind ++ e.kind :: after.map Event.kind) := by
      simpa [hsplit] using hevents
    exact History.admits_of_shuffle hkeys hnew hsplit
  obtain ⟨s', hs', ht⟩ := htracks hevents
  refine ⟨s', hs', ht.ids, ?_, fun stream hstream ↦ ?_, fun events' hevents' ↦ ?_⟩
  · have hnone := History.not_open_of_shuffle hevents
    have htexts := ht.texts.eq_nil fun id ↦ (hnone id).1
    have harguments := ht.calls.arguments.eq_nil fun id ↦ (hnone id).2
    simp [hasOpenBuffers, htexts, harguments]
  · have habout := History.about_eq_kinds hkeys hevents hstream
    cases stream with
    | text id role deltas => exact ht.gathered_text habout (hnew _ hstream)
    | call callId name parent deltas => exact ht.gathered_call habout (hnew _ hstream)
  · obtain ⟨s'', hs'', ht'⟩ := htracks hevents'
    refine ⟨s'', hs'', fun id ↦ ?_⟩
    rw [ht.find?, ht'.find?]
    refine History.rel_message? (hevents.perm.trans hevents'.perm.symm) (fun key ↦ ?_) s id
    rw [History.about_of_shuffle hkeys hevents, History.about_of_shuffle hkeys hevents']

/-- A tool call is started in a text message before that begins, and another one in a message that
is there already. -/
theorem exists_handleEach_of_shuffle_three :
    let s : Session := { messages := [{ id := "p", role := .user, content := "?" }] }
    let streams : List MessageStream :=
      [.text "a" .assistant ["x", "y"], .call "c" "f" "a" ["1"], .call "d" "g" "p" []]
    let events : List Event :=
      [.toolCallStart "c" "f" (some "a"), .textMessageStart "a" .assistant,
        .toolCallStart "d" "g" (some "p"), .textMessageContent "a" "x", .toolCallArgs "c" "1",
        .toolCallEnd "d", .textMessageContent "a" "y", .textMessageEnd "a",
        .toolCallEnd "c"].map fun kind ↦ { kind, timestamp := 0 }
    Shuffle (streams.map MessageStream.kinds) (events.map Event.kind) ∧
      ∃ s', s.handleEach events = .ok s' ∧ s'.hasOpenBuffers = false ∧
        ∀ stream ∈ streams, stream.Gathered s' := by
  intro s streams events
  have hevents : Shuffle (streams.map MessageStream.kinds) (events.map Event.kind) :=
    .take_at 1 rfl <| .take_at 0 rfl <| .take_at 2 rfl <| .take_at 0 rfl <| .take_at 1 rfl <|
      .take_at 2 rfl <| .take_at 0 rfl <| .take_at 0 rfl <| .take_at 1 rfl <| .done (by decide)
  have hnew : ∀ stream ∈ streams, stream.IsNew s := by
    simp [streams, s, MessageStream.IsNew]
  obtain ⟨s', hs', -, hopen, hgathered, -⟩ :=
    exists_handleEach_of_shuffle s streams (by decide) rfl (by decide) hnew hevents
  exact ⟨hevents, s', hs', hopen, hgathered⟩

end Session

end AgentSession
