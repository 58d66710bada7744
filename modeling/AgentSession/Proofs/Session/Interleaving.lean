import AgentSession.Proofs.Session.Streams
import AgentSession.Proofs.Shuffle
/-!
# Interleaved streams

Text messages and tool calls arrive as streams: each begins, goes on, and ends. The streams of many
of them arrive at once, interleaved in any way. This module shows that the history of an
interleaving admits every event of it, and what it holds of each stream in the end.

## The argument

The events of one stream are told by a key. Since keys do not repeat, they can be picked out of the
interleaving, and come out as the stream that was put in (`History.about_eq_kinds`). So what
came before an event of a stream is, as far as that stream is concerned, a beginning of it, and the
history admits the event (`History.admits_of_shuffle`). And at the end what the history holds of the
stream is the whole of it.
-/

namespace AgentSession

/-! ## Streams -/

/-- What tells the events of a stream. -/
inductive StreamKey where
  /-- The identifier of a text message. -/
  | text (id : String)
  /-- The identifier of a tool call. -/
  | call (callId : String)
deriving DecidableEq, Repr

/-- The stream that an event belongs to. -/
def EventKind.key? : EventKind → Option StreamKey
  | .textMessageStart id _ | .textMessageContent id _ | .textMessageEnd id => some (.text id)
  | .toolCallStart callId _ _ | .toolCallArgs callId _ | .toolCallEnd callId => some (.call callId)
  | _ => none

/-- A well-formed stream. -/
inductive MessageStream where
  /-- A text message with the pieces of its text. -/
  | text (id : String) (role : Role) (deltas : List String)
  /-- A tool call with the message that it belongs to and the pieces of its arguments. -/
  | call (callId name parent : String) (deltas : List String)
deriving DecidableEq, Repr

namespace MessageStream

/-- What tells the events of the stream. -/
def key : MessageStream → StreamKey
  | .text id _ _ => .text id
  | .call callId _ _ _ => .call callId

/-- What the events of the stream say, in their order. -/
def kinds : MessageStream → List EventKind
  | .text id role deltas =>
    .textMessageStart id role :: (deltas.map (.textMessageContent id) ++ [.textMessageEnd id])
  | .call callId name parent deltas =>
    .toolCallStart callId name (some parent) ::
      (deltas.map (.toolCallArgs callId) ++ [.toolCallEnd callId])

/-- What the stream is about is not there yet. -/
def IsNew (s : Session) : MessageStream → Prop
  | .text id _ _ => id ∉ s.messages.map Message.id
  | .call callId _ _ _ => ∀ m ∈ s.messages, ∀ call ∈ m.toolCalls, call.id ≠ callId

/-- A session has gathered the stream: the text is that of its message; the tool call is in its
parent once, with its arguments, and in no other message. -/
def Gathered (s : Session) : MessageStream → Prop
  | .text id _ deltas =>
    ∃ m, Message.find? s.messages id = some m ∧ m.content = String.join deltas
  | .call callId name parent deltas =>
    (∃ m ∈ s.messages, m.id = parent) ∧
      ∀ m ∈ s.messages, m.toolCalls.filter (fun call ↦ call.id = callId) =
        if m.id = parent then
          [{ id := callId, function := { name, arguments := String.join deltas } }]
        else []

theorem key?_of_mem_kinds {stream : MessageStream} {k : EventKind} (hk : k ∈ stream.kinds) :
    k.key? = some stream.key := by
  cases stream with
  | text id role deltas =>
    simp only [kinds, List.mem_cons, List.mem_append, List.mem_map, List.not_mem_nil,
      or_false] at hk
    rcases hk with rfl | ⟨delta, -, rfl⟩ | rfl <;> rfl
  | call callId name parent deltas =>
    simp only [kinds, List.mem_cons, List.mem_append, List.mem_map, List.not_mem_nil,
      or_false] at hk
    rcases hk with rfl | ⟨delta, -, rfl⟩ | rfl <;> rfl

end MessageStream

namespace History

/-- What a history holds of a stream. -/
def about (h : History) (key : StreamKey) : History := h.filter fun k ↦ k.key? = some key

theorem about_kinds (stream : MessageStream) (key : StreamKey) :
    about stream.kinds key = if stream.key = key then stream.kinds else [] := by
  by_cases hkey : stream.key = key
  · rw [if_pos hkey]
    refine List.filter_eq_self.2 fun k hk ↦ ?_
    simp [MessageStream.key?_of_mem_kinds hk, hkey]
  · rw [if_neg hkey]
    refine List.filter_eq_nil_iff.2 fun k hk ↦ ?_
    simp [MessageStream.key?_of_mem_kinds hk, hkey]

variable {h : History} {streams : List MessageStream}

/-- Where keys do not repeat, what an interleaving holds of a stream does not depend on it. -/
theorem about_of_shuffle (hkeys : (streams.map MessageStream.key).Nodup)
    (hh : Shuffle (streams.map MessageStream.kinds) h) (key : StreamKey) :
    h.about key = about (streams.map MessageStream.kinds).flatten key := by
  refine hh.filter_eq _ (List.pairwise_map.2 ((List.pairwise_map.1 hkeys).imp fun hne ↦ ?_))
  rename_i stream other
  have hstream := about_kinds stream key
  have hother := about_kinds other key
  by_cases hkey : stream.key = key
  · exact .inr (hother.trans (if_neg fun heq ↦ hne (hkey.trans heq.symm)))
  · exact .inl (hstream.trans (if_neg hkey))

theorem about_flatten_kinds (hkeys : (streams.map MessageStream.key).Nodup)
    {stream : MessageStream} (hstream : stream ∈ streams) :
    about (streams.map MessageStream.kinds).flatten stream.key = stream.kinds := by
  induction streams with
  | nil => cases hstream
  | cons other streams ih =>
    obtain ⟨hother, hkeys⟩ := List.nodup_cons.1 (List.map_cons ▸ hkeys)
    have happend : about ((other :: streams).map MessageStream.kinds).flatten stream.key =
        about other.kinds stream.key ++
          about (streams.map MessageStream.kinds).flatten stream.key := List.filter_append _ _
    rw [happend, about_kinds]
    rcases List.mem_cons.1 hstream with rfl | hstream
    · have hrest : about (streams.map MessageStream.kinds).flatten stream.key = [] := by
        refine Shuffle.filter_flatten_eq_nil _ fun l hl ↦ ?_
        obtain ⟨other, hmem, rfl⟩ := List.mem_map.1 hl
        refine (about_kinds other stream.key).trans (if_neg fun heq ↦ hother ?_)
        exact heq ▸ List.mem_map_of_mem hmem
      rw [if_pos rfl, hrest, List.append_nil]
    · have hne : other.key ≠ stream.key := fun heq ↦ hother (heq ▸ List.mem_map_of_mem hstream)
      rw [if_neg hne, List.nil_append, ih hkeys hstream]

/-- Each stream can be picked out of an interleaving. -/
theorem about_eq_kinds (hkeys : (streams.map MessageStream.key).Nodup)
    (hh : Shuffle (streams.map MessageStream.kinds) h) {stream : MessageStream}
    (hstream : stream ∈ streams) : h.about stream.key = stream.kinds :=
  (about_of_shuffle hkeys hh stream.key).trans (about_flatten_kinds hkeys hstream)

theorem exists_stream_of_mem (hh : Shuffle (streams.map MessageStream.kinds) h) {k : EventKind}
    (hk : k ∈ h) : ∃ stream ∈ streams, k ∈ stream.kinds := by
  obtain ⟨l, hl, hkl⟩ := List.mem_flatten.1 (hh.perm.mem_iff.1 hk)
  obtain ⟨stream, hstream, rfl⟩ := List.mem_map.1 hl
  exact ⟨stream, hstream, hkl⟩

/-! ## What is gathered of one stream -/

/-- What is gathered from the events of one stream is gathered from what is held of that stream. -/
theorem filterMap_about {α : Type} {f : EventKind → Option α} {key : StreamKey}
    (hf : ∀ k, k.key? ≠ some key → f k = none) : (h.about key).filterMap f = h.filterMap f := by
  rw [about, List.filterMap_filter]
  refine List.filterMap_congr fun k _ ↦ ?_
  by_cases hk : k.key? = some key
  · rw [if_pos (decide_eq_true hk)]
  · rw [if_neg (by simpa using hk), hf k hk]

theorem text_about (h : History) (id : String) : (h.about (.text id)).text id = h.text id := by
  rw [text, filterMap_about, text]
  intro k hk
  unfold EventKind.textDelta?
  split
  · refine if_neg fun heq ↦ hk ?_
    rw [← heq]
    rfl
  · rfl

theorem arguments_about (h : History) (callId : String) :
    (h.about (.call callId)).arguments callId = h.arguments callId := by
  rw [arguments, filterMap_about, arguments]
  intro k hk
  unfold EventKind.argumentsDelta?
  split
  · refine if_neg fun heq ↦ hk ?_
    rw [← heq]
    rfl
  · rfl

theorem key?_of_startedIn? {k : EventKind} {id : String} {start : String × String}
    (hk : k.startedIn? id = some start) : k.key? = some (.call start.1) := by
  unfold EventKind.startedIn? at hk
  split at hk
  · split at hk
    · cases hk
      rfl
    · cases hk
  · cases hk

theorem starts_about (h : History) (callId id : String) :
    (h.about (.call callId)).starts id = (h.starts id).filter fun start ↦ start.1 = callId := by
  rw [starts, starts, about, List.filterMap_filter, List.filter_filterMap]
  refine List.filterMap_congr fun k _ ↦ ?_
  cases hk : k.startedIn? id with
  | none => simp
  | some start =>
    by_cases hid : start.1 = callId <;> simp [key?_of_startedIn? hk, hid, Option.filter_some]

/-! ## What comes before an event -/

/-- An event of a list that begins and ends with certain events is the first of it, or comes after
the first and before the last. -/
theorem split_cases {α : Type} {start fin k : α} {middle before after : List α}
    (hsplit : before ++ k :: after = start :: (middle ++ [fin])) :
    (before = [] ∧ k = start) ∨
      (start ∈ before ∧ (∀ x ∈ before, x = start ∨ x ∈ middle) ∧ (k ∈ middle ∨ k = fin)) := by
  cases before with
  | nil => exact .inl ⟨rfl, (List.cons.inj hsplit).1⟩
  | cons x before =>
    obtain ⟨rfl, htail⟩ := List.cons.inj (List.cons_append ▸ hsplit)
    have hmiddle : before ++ (k :: after).dropLast = middle := by
      rw [← List.dropLast_append_of_ne_nil (List.cons_ne_nil k after), htail,
        List.dropLast_concat]
    refine .inr ⟨List.mem_cons_self, fun y hy ↦ ?_, ?_⟩
    · refine (List.mem_cons.1 hy).imp_right fun hy ↦ ?_
      exact hmiddle ▸ List.mem_append_left _ hy
    · have hk : k ∈ middle ++ [fin] := htail ▸ List.mem_append_right _ List.mem_cons_self
      exact (List.mem_append.1 hk).imp_right List.mem_singleton.1

theorem mem_about {k : EventKind} {key : StreamKey} :
    k ∈ h.about key ↔ k ∈ h ∧ k.key? = some key := by
  simp [about]

/-- An interleaving of new streams is admitted event by event. -/
theorem admits_of_shuffle {s : Session} (hkeys : (streams.map MessageStream.key).Nodup)
    (hnew : ∀ stream ∈ streams, stream.IsNew s) {k : EventKind} {rest : List EventKind}
    (hh : Shuffle (streams.map MessageStream.kinds) (h ++ k :: rest)) : h.Admits s k := by
  obtain ⟨stream, hstream, hk⟩ := exists_stream_of_mem hh
    (List.mem_append_right _ List.mem_cons_self)
  have hkey := MessageStream.key?_of_mem_kinds hk
  -- what came before of this stream is a beginning of it, and `k` comes next
  have hsplit : h.about stream.key ++ k :: about rest stream.key = stream.kinds := by
    rw [← about_eq_kinds hkeys hh hstream]
    simp [about, hkey]
  have hmem {x : EventKind} (hx : x ∈ h.about stream.key) : x ∈ h := (mem_about.1 hx).1
  have hnot {x : EventKind} (hx : x.key? = some stream.key) (hab : x ∉ h.about stream.key) :
      x ∉ h := fun hxh ↦ hab (mem_about.2 ⟨hxh, hx⟩)
  -- in each case `k` is the start, and nothing came before, or the stream is open
  cases stream with
  | text id role deltas =>
    rcases split_cases hsplit with ⟨hnone, rfl⟩ | ⟨hstart, hbefore, hk⟩
    · refine hnot rfl ?_
      rw [hnone]
      exact List.not_mem_nil
    · have hopen : h.TextOpen id := by
        refine ⟨⟨role, hmem hstart⟩, hnot rfl fun hend ↦ ?_⟩
        simpa using hbefore _ hend
      rcases hk with hk | rfl
      · obtain ⟨delta, -, rfl⟩ := List.mem_map.1 hk
        exact hopen
      · exact hopen
  | call callId name parent deltas =>
    rcases split_cases hsplit with ⟨hnone, rfl⟩ | ⟨hstart, hbefore, hk⟩
    · have harguments : h.arguments callId = "" := by
        rw [← arguments_about, show h.about (.call callId) = [] from hnone]
        rfl
      refine ⟨rfl, fun hstarted ↦ ?_, harguments, hnot rfl ?_, hnew _ hstream⟩
      · obtain ⟨name', parent', hmem'⟩ := mem_startedIds.1 hstarted
        refine hnot rfl ?_ hmem'
        rw [hnone]
        exact List.not_mem_nil
      · rw [hnone]
        exact List.not_mem_nil
    · have hopen : h.CallOpen callId := by
        refine ⟨⟨name, parent, hmem hstart⟩, hnot rfl fun hend ↦ ?_⟩
        simpa using hbefore _ hend
      rcases hk with hk | rfl
      · obtain ⟨delta, -, rfl⟩ := List.mem_map.1 hk
        exact hopen
      · exact hopen

end History

end AgentSession
