import AgentSession.Proofs.Session.Buffers
import AgentSession.Proofs.Session.CallPieces
import AgentSession.Proofs.Session.Growth
/-!
# Open calls

No call goes astray by itself. While messages only grow, the message that an open call was started
in stays and holds the call. So the arguments of a piece can be lost only after a list of messages
has been brought that does not keep the open calls where they are, whether by an event, by a
mutation or from outside (`Session.gains_of_allKeep`).
-/

namespace AgentSession

variable {σ : Type}

namespace Message

variable {fresh : Prop} {ms ms' : List Message} {m m' : Message} {id callId parentId : String}

/-- The message with an identifier is there and holds a tool call. -/
def HoldsCall (ms : List Message) (parentId callId : String) : Prop :=
  ∃ m, find? ms parentId = some m ∧ callId ∈ m.toolCalls.map ToolCall.id

theorem Changed.exists_find? {R : Message → Message → Prop} (h : Changed R ms ms')
    (hR : ∀ m m', R m m' → m'.id = m.id) (hm : find? ms id = some m) :
    ∃ m', find? ms' id = some m' ∧ (m' = m ∨ R m m') := by
  obtain ⟨before, n, n', after, rfl, rfl, hn⟩ := h
  have happend (n : Message) : find? (before ++ n :: after) id =
      (find? before id).or (if n.id = id then some n else find? after id) := by
    rw [← find?_cons]
    exact List.find?_append
  rw [happend] at hm
  rw [happend, hR n n' hn]
  cases hbefore : find? before id with
  | some found =>
    rw [hbefore] at hm
    exact ⟨m, hm, .inl rfl⟩
  | none =>
    rw [hbefore, Option.none_or] at hm
    by_cases hid : n.id = id
    · rw [if_pos hid] at hm ⊢
      obtain rfl := Option.some.inj hm
      exact ⟨n', rfl, .inr hn⟩
    · rw [if_neg hid] at hm ⊢
      exact ⟨m, hm, .inl rfl⟩

theorem HoldsCall.append (h : HoldsCall ms parentId callId) (added : List Message) :
    HoldsCall (ms ++ added) parentId callId := by
  obtain ⟨m, hm, hcall⟩ := h
  have happend : find? (ms ++ added) parentId =
      (find? ms parentId).or (find? added parentId) := List.find?_append
  refine ⟨m, ?_, hcall⟩
  rw [happend, hm, Option.some_or]

theorem HoldsCall.step (h : HoldsCall ms parentId callId) (hstep : Step fresh ms ms') :
    HoldsCall ms' parentId callId := by
  cases hstep with
  | add hcalls hid => exact h.append _
  | grow hchanged =>
    obtain ⟨m, hm, hcall⟩ := h
    obtain ⟨m', hm', rfl | hgrows⟩ := hchanged.exists_find? (fun _ _ ↦ Grows.id_eq) hm
    · exact ⟨m', hm', hcall⟩
    · refine ⟨m', hm', ?_⟩
      rcases hgrows.calls with heq | ⟨added, -, heq⟩
      · rw [heq]
        exact hcall
      · rw [heq]
        exact List.mem_append_left _ hcall

theorem HoldsCall.steps (h : HoldsCall ms parentId callId) (hsteps : Steps fresh ms ms') :
    HoldsCall ms' parentId callId := by
  induction hsteps with
  | refl => exact h
  | tail _ hstep ih => exact ih.step hstep

end Message

namespace Session

open Message (HoldsCall Steps)

variable {fresh : Prop} {s s' : Session} {k : EventKind} {callId name : String}
  {requested : Option String}

/-- The open calls of a session are where they were started in some messages. -/
def OpenCallsIn (s : Session) (messages : List Message) : Prop :=
  ∀ callId parentId, s.callParents.get? callId = some parentId →
    HoldsCall messages parentId callId

/-- Each open call is in the message that it was started in. -/
structure Anchored (s : Session) : Prop where
  sorted : s.callParents.Sorted
  openCallsIn : s.OpenCallsIn s.messages

theorem Anchored.not_astray (hs : s.Anchored) : ¬s.Astray callId requested := by
  rintro ⟨parentId, hparent, hlacks, -⟩
  obtain ⟨m, hm, hcall⟩ := hs.openCallsIn callId parentId hparent
  obtain ⟨call, hmem, hid⟩ := List.mem_map.1 hcall
  exact Message.findToolCall?_eq_none_iff.1 (hlacks m hm) call hmem hid

/-- The calls that are open stay anchored while the messages grow. -/
theorem Anchored.steps (hs : s.Anchored) (hparents : s'.callParents = s.callParents)
    (hsteps : Steps fresh s.messages s'.messages) : s'.Anchored where
  sorted := hparents ▸ hs.sorted
  openCallsIn callId parentId hparent := by
    rw [hparents] at hparent
    exact (hs.openCallsIn callId parentId hparent).steps hsteps

theorem Anchored.startCall (hs : s.Anchored) (callId name : String) (requested : Option String) :
    (s.startCall callId name requested).session.Anchored := by
  -- whether identifiers are fresh does not matter here: what is found first stays first
  have hsteps : Steps False s.messages (s.openToolCall callId name requested).session.messages :=
    steps_openToolCall False.elim
  have hopened := hs.steps (s.sameBuffers_openToolCall callId name requested).callParents hsteps
  cases hopen : (s.openToolCall callId name requested).outcome with
  | error failure =>
    rw [startCall_of_error hopen]
    exact hopened
  | ok parentId =>
    obtain ⟨parent, rfl, -, hadded⟩ := exists_opened hopen
    rw [startCall_of_ok hopen]
    refine ⟨hopened.sorted.insert callId parent.id, fun other otherParent hother ↦ ?_⟩
    rw [Dict.get?_insert] at hother
    split at hother
    · -- the call that was started is in the message that it was added to
      rename_i heq
      obtain rfl := Option.some.inj hother
      refine ⟨_, hadded.find?_self, ?_⟩
      rw [Message.addToolCall, List.map_append, ← heq]
      exact List.mem_append_right _ (List.mem_singleton_self _)
    · exact hopened.openCallsIn other otherParent hother

theorem Anchored.endCall (hs : s.Anchored) (callId : String) :
    (s.endCall callId).session.Anchored := by
  refine ⟨hs.sorted.erase callId, fun other parentId hother ↦ ?_⟩
  change (s.callParents.erase callId).get? other = some parentId at hother
  rw [hs.sorted.get?_erase] at hother
  split at hother
  · cases hother
  · exact hs.openCallsIn other parentId hother

/-- **One event.** An event keeps the open calls anchored, if a list of messages that it brings
does. -/
theorem Anchored.apply (hs : s.Anchored)
    (hlist : ∀ messages, k = .messagesSnapshot messages → s.OpenCallsIn messages) :
    (s.apply k).session.Anchored := by
  by_cases hsnapshot : ∃ messages, k = .messagesSnapshot messages
  · obtain ⟨messages, rfl⟩ := hsnapshot
    exact ⟨hs.sorted, hlist messages rfl⟩
  · have hsteps : Steps (s.DrawsFresh k) s.messages (s.apply k).session.messages :=
      steps_apply fun messages heq ↦ hsnapshot ⟨messages, heq⟩
    -- only a start and an end write the table of open calls
    cases k with
    | toolCallStart callId name requested => exact hs.startCall callId name requested
    | toolCallArgs callId delta => exact hs.steps rfl hsteps
    | toolCallEnd callId => exact hs.endCall callId
    | _ => exact hs.steps (sameCalls_apply rfl).callParents hsteps

/-! ## All operations -/

/-- A list of messages that an operation brings keeps the open calls where they are. -/
def Keeps (s : Session) : Operation σ → Prop
  | .handle subscribers e memory =>
    s.passes subscribers e memory = true →
      ∀ messages, e.kind = .messagesSnapshot messages → s.OpenCallsIn messages
  | .commit m => ∀ messages, m.messages = some messages → s.OpenCallsIn messages
  | .addMessage _ => True
  | .setMessages messages => s.OpenCallsIn messages
  | .setStore _ => True

/-- Each of some operations keeps the open calls of the session that it is performed on. -/
def AllKeep (s : Session) : List (Operation σ) → Prop
  | [] => True
  | op :: ops => s.Keeps op ∧ (s.perform op).AllKeep ops

theorem Anchored.perform (hs : s.Anchored) {op : Operation σ} (hop : s.Keeps op) :
    (s.perform op).Anchored := by
  cases op with
  | handle subscribers e memory =>
    change (s.handle subscribers e memory).session.Anchored
    rw [handle_session]
    split
    · rename_i hpasses
      exact hs.apply (hop hpasses)
    · exact hs
  | commit m =>
    obtain ⟨messages, state, stop⟩ := m
    cases messages with
    | none => cases state <;> exact ⟨hs.sorted, hs.openCallsIn⟩
    | some messages => cases state <;> exact ⟨hs.sorted, hop messages rfl⟩
  | addMessage m =>
    exact ⟨hs.sorted, fun callId parentId hparent ↦
      (hs.openCallsIn callId parentId hparent).append [m]⟩
  | setMessages messages => exact ⟨hs.sorted, hop⟩
  | setStore store => exact ⟨hs.sorted, hs.openCallsIn⟩

theorem Anchored.performAll (hs : s.Anchored) {ops : List (Operation σ)} (hops : s.AllKeep ops) :
    (s.performAll ops).Anchored := by
  induction ops generalizing s with
  | nil => exact hs
  | cons op ops ih =>
    obtain ⟨hop, hops⟩ := hops
    exact ih (hs.perform hop) hops

theorem anchored_start (s : Session) (input : RunInput) : (s.start input).Anchored :=
  ⟨List.Pairwise.nil, nofun⟩

theorem Anchored.gains (hs : s.Anchored) {subscribers : List (Subscriber σ)} {e : Event}
    {memory : σ} {callName : Option String} {delta : String}
    (hkind : e.kind = .toolCallChunk callId callName requested delta) {m : Mutation}
    (hok : (s.handle subscribers e memory).outcome = .ok m) (hstop : m.stop = false) :
    s.Gains (s.handle subscribers e memory).session callId delta := by
  obtain ⟨⟨text, htext⟩, hsession⟩ := chunkCall_of_handle_ok hkind hok hstop
  rw [hsession]
  exact gains_chunkCall htext hs.not_astray

/-- **No arguments are lost.** Let all lists of messages that were brought since a run started keep
the open calls where they are. Then a piece of a tool call that is handled without a failure or a
request to stop reaches its call. -/
theorem gains_of_allKeep (s₀ : Session) (input : RunInput) (ops : List (Operation σ))
    (hops : (s₀.start input).AllKeep ops) (subscribers : List (Subscriber σ)) (e : Event)
    (memory : σ) {callName : Option String} {delta : String}
    (hkind : e.kind = .toolCallChunk callId callName requested delta) {m : Mutation} :
    let s := (s₀.start input).performAll ops
    (s.handle subscribers e memory).outcome = .ok m → m.stop = false →
      s.Gains (s.handle subscribers e memory).session callId delta := by
  intro s hok hstop
  have hs : s.Anchored := (s₀.anchored_start input).performAll hops
  exact hs.gains hkind hok hstop

end Session

end AgentSession
