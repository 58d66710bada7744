import AgentSession.Proofs.Session.History
import AgentSession.Proofs.Dict
import AgentSession.Session.Handle
/-!
# Streams of events

A session that handles text messages and tool calls keeps up with the history of what was said.

## The invariant

`Session.Tracks` relates a session to the history since some earlier state of it: its messages are
those of the history, its buffers are those of the streams that are open, and it knows the parent
of each open tool call. One event that the history admits keeps it so (`Session.Tracks.apply`).
-/

namespace AgentSession

namespace History

/-! ## Open streams -/

/-- A text message has begun and not ended. -/
def TextOpen (h : History) (id : String) : Prop :=
  (∃ role, .textMessageStart id role ∈ h) ∧ .textMessageEnd id ∉ h

/-- A tool call has begun and not ended. -/
def CallOpen (h : History) (callId : String) : Prop :=
  (∃ name parent, .toolCallStart callId name (some parent) ∈ h) ∧ .toolCallEnd callId ∉ h

section Concat

variable {h : History} {k : EventKind} {id other : String}

theorem textOpen_concat (hstart : ∀ role, k ≠ .textMessageStart id role)
    (hend : k ≠ .textMessageEnd id) : (h ++ [k]).TextOpen id ↔ h.TextOpen id := by
  simp [TextOpen, Ne.symm hend, fun role ↦ Ne.symm (hstart role)]

theorem textOpen_concat_start (role : Role) (hid : .textMessageEnd id ∉ h) :
    TextOpen (h ++ [.textMessageStart id role]) other ↔ other = id ∨ h.TextOpen other := by
  by_cases hother : other = id
  · subst hother
    simp [TextOpen, hid]
  · simp [TextOpen, hother]

theorem textOpen_concat_end :
    TextOpen (h ++ [.textMessageEnd id]) other ↔ other ≠ id ∧ h.TextOpen other := by
  by_cases hother : other = id <;> simp [TextOpen, hother]

theorem callOpen_concat (hstart : ∀ name parent, k ≠ .toolCallStart id name parent)
    (hend : k ≠ .toolCallEnd id) : (h ++ [k]).CallOpen id ↔ h.CallOpen id := by
  simp [CallOpen, Ne.symm hend, fun name parent ↦ Ne.symm (hstart name parent)]

theorem callOpen_concat_start (name parent : String) (hid : .toolCallEnd id ∉ h) :
    CallOpen (h ++ [.toolCallStart id name (some parent)]) other ↔
      other = id ∨ h.CallOpen other := by
  by_cases hother : other = id
  · subst hother
    simp only [CallOpen, List.mem_append, List.mem_singleton, true_or, iff_true]
    exact ⟨⟨name, parent, .inr rfl⟩, by simp [hid]⟩
  · simp [CallOpen, hother]

theorem callOpen_concat_end :
    CallOpen (h ++ [.toolCallEnd id]) other ↔ other ≠ id ∧ h.CallOpen other := by
  by_cases hother : other = id <;> simp [CallOpen, hother]

end Concat

theorem touched_of_mem {h : History} {k : EventKind} {id : String} (hk : k ∈ h)
    (htouches : k.touches id = true) : h.touched id = true :=
  List.any_eq_true.2 ⟨k, hk, htouches⟩

/-- What may come next: a text message begins that has not ended, a tool call begins that has not
been heard of, and only what is open goes on or ends. -/
def Admits (h : History) (s : Session) : EventKind → Prop
  | .textMessageStart id _ => .textMessageEnd id ∉ h
  | .textMessageContent id _ | .textMessageEnd id => h.TextOpen id
  | .toolCallStart callId _ parent =>
    parent.isSome ∧ callId ∉ h.startedIds ∧ h.arguments callId = "" ∧ .toolCallEnd callId ∉ h ∧
      ∀ m ∈ s.messages, ∀ call ∈ m.toolCalls, call.id ≠ callId
  | .toolCallArgs callId _ | .toolCallEnd callId => h.CallOpen callId
  | _ => False

end History

/-! ## Buffers -/

namespace Dict

/-- The keys of a dictionary stand in order, and are those with a property. -/
structure Holds {α : Type} (d : Dict α) (isOpen : String → Prop) : Prop where
  sorted : d.Sorted
  isSome_iff : ∀ key, (d.get? key).isSome ↔ isOpen key

variable {d : Dict String} {isOpen isOpen' : String → Prop}

theorem Holds.insert (h : d.Holds isOpen) {key : String} (value : String)
    (hopen : ∀ other, isOpen' other ↔ other = key ∨ isOpen other) :
    (d.insert key value).Holds isOpen' where
  sorted := h.sorted.insert key value
  isSome_iff other := by
    rw [hopen]
    by_cases hkey : other = key
    · simp [hkey]
    · rw [get?_insert_of_ne d (Ne.symm hkey), h.isSome_iff]
      simp [hkey]

theorem Holds.appendText (h : d.Holds isOpen) (key delta : String)
    (hopen : ∀ other, isOpen' other ↔ isOpen other) :
    (d.appendText key delta).2.Holds isOpen' := by
  unfold Dict.appendText
  cases hkey : d.get? key with
  | none => exact ⟨h.sorted, fun other ↦ (h.isSome_iff other).trans (hopen other).symm⟩
  | some text =>
    refine h.insert _ fun other ↦ (hopen other).trans ⟨.inr, ?_⟩
    rintro (rfl | hother)
    · exact (h.isSome_iff other).1 (by rw [hkey]; rfl)
    · exact hother

theorem Holds.closeText (h : d.Holds isOpen) (key : String)
    (hopen : ∀ other, isOpen' other ↔ other ≠ key ∧ isOpen other) :
    (d.closeText key).2.Holds isOpen' where
  sorted := h.sorted.erase key
  isSome_iff other := by
    rw [hopen]
    by_cases hkey : other = key
    · subst hkey
      simp [Dict.closeText, h.sorted.get?_erase_self]
    · rw [Dict.closeText, get?_erase_of_ne d (Ne.symm hkey), h.isSome_iff]
      simp [hkey]

theorem Holds.congr (h : d.Holds isOpen) (hopen : ∀ other, isOpen' other ↔ isOpen other) :
    d.Holds isOpen' :=
  ⟨h.sorted, fun other ↦ (h.isSome_iff other).trans (hopen other).symm⟩

theorem Holds.eq_nil (h : d.Holds isOpen) (hnone : ∀ key, ¬isOpen key) : d = [] := by
  refine eq_nil_of_get?_eq_none fun key ↦ ?_
  rw [← Option.not_isSome_iff_eq_none, h.isSome_iff]
  exact hnone key

end Dict

namespace Session

variable {s : Session} {m : Message}

/-! ## What the operations do -/

theorem startText_eq (s : Session) (id : String) :
    (s.startText id).outcome = .ok "" ∧
      (s.startText id).session =
        { s with
          textBuffers := s.textBuffers.insert id ""
          messages := Message.ensured s.messages id } := by
  unfold startText Message.ensured
  dsimp only
  split
  · exact ⟨rfl, rfl⟩
  · exact ⟨rfl, rfl⟩

theorem exists_continueText {id : String} (hm : Message.find? s.messages id = some m)
    (delta : String) :
    ∃ text ms, (s.continueText id delta).outcome = .ok text ∧
      (s.continueText id delta).session =
        { s with textBuffers := (s.textBuffers.appendText id delta).2, messages := ms } ∧
      ms.map Message.id = s.messages.map Message.id ∧
      ∀ other, Message.find? ms other =
        if other = id then some (m.append delta) else Message.find? s.messages other := by
  obtain ⟨ms, hms, hids, hfind⟩ :=
    Message.exists_modify? (f := fun m ↦ some (m.append delta)) hm rfl rfl
  refine ⟨_, ms, rfl, ?_, hids, hfind⟩
  simp only [continueText, Message.appendTo?, hms, Option.getD_some]

theorem resolveParent_some (s : Session) (parent : String) :
    ∃ notices, s.resolveParent (some parent) =
      (parent, { s with messages := Message.ensured s.messages parent }, notices) := by
  unfold resolveParent Message.ensured
  dsimp only
  split
  · exact ⟨_, rfl⟩
  · exact ⟨_, rfl⟩

theorem exists_startCall {callId parent : String}
    (hm : Message.find? (Message.ensured s.messages parent) parent = some m)
    (hcall : ∀ call ∈ m.toolCalls, call.id ≠ callId) (name : String) :
    ∃ text ms, (s.startCall callId name (some parent)).outcome = .ok text ∧
      (s.startCall callId name (some parent)).session =
        { s with
          messages := ms
          argumentBuffers := s.argumentBuffers.insert callId ""
          callParents := s.callParents.insert callId parent } ∧
      ms.map Message.id = (Message.ensured s.messages parent).map Message.id ∧
      ∀ other, Message.find? ms other =
        if other = parent then some (m.addToolCall (ToolCall.new callId name))
        else Message.find? (Message.ensured s.messages parent) other := by
  obtain ⟨notices, hparent⟩ := s.resolveParent_some parent
  obtain ⟨ms, hms, hids, hfind⟩ :=
    Message.exists_modify? (f := fun m ↦ some (m.addToolCall (ToolCall.new callId name))) hm rfl rfl
  have hnone : m.findToolCall? callId = none := by
    rw [Message.findToolCall?, List.find?_eq_none]
    intro call hmem
    simpa using hcall call hmem
  refine ⟨"", ms, ?_, ?_, hids, hfind⟩
  · simp [startCall, openToolCall, hparent, hm, hnone]
  · simp [startCall, openToolCall, hparent, hm, hnone, hms]

theorem exists_continueCall {callId parent : String} {calls : List ToolCall} {delta : String}
    (hparent : s.callParents.get? callId = some parent)
    (hm : Message.find? s.messages parent = some m)
    (hcalls : Message.appendCall? callId delta m.toolCalls = some calls) :
    ∃ text ms, (s.continueCall callId delta).outcome = .ok text ∧
      (s.continueCall callId delta).session =
        { s with
          argumentBuffers := (s.argumentBuffers.appendText callId delta).2
          messages := ms } ∧
      ms.map Message.id = s.messages.map Message.id ∧
      ∀ other, Message.find? ms other =
        if other = parent then some { m with toolCalls := calls }
        else Message.find? s.messages other := by
  have hf : Message.appendArguments? callId delta m = some { m with toolCalls := calls } := by
    rw [Message.appendArguments?, hcalls]
    rfl
  obtain ⟨ms, hms, hids, hfind⟩ := Message.exists_modify? hm hf rfl
  refine ⟨_, ms, rfl, ?_, hids, hfind⟩
  simp only [continueCall, appendArguments?, hparent, hms, Option.getD_some]

/-! ## The invariant -/

/-- A session knows the tool calls that were started since an earlier state of it. -/
structure TracksCalls (s₀ : Session) (h : History) (s : Session) : Prop where
  /-- No tool call was started twice. -/
  started : h.startedIds.Nodup
  /-- No tool call that was started was there before. -/
  fresh : ∀ callId ∈ h.startedIds, ∀ m ∈ s₀.messages, ∀ call ∈ m.toolCalls, call.id ≠ callId
  /-- There is a buffer for the arguments of each open tool call. -/
  arguments : s.argumentBuffers.Holds h.CallOpen
  /-- The parent of each open tool call is known. -/
  parents : ∀ callId name parent, .toolCallStart callId name (some parent) ∈ h →
    .toolCallEnd callId ∉ h → s.callParents.get? callId = some parent

/-- A session is what has become of an earlier state of it by a history. -/
structure Tracks (s₀ : Session) (h : History) (s : Session) : Prop where
  /-- No two messages have the same identifier. -/
  ids : (s.messages.map Message.id).Nodup
  /-- The messages are those of the history. -/
  find? : ∀ id, Message.find? s.messages id = h.message? s₀ id
  /-- There is a text buffer for each open text message. -/
  texts : s.textBuffers.Holds h.TextOpen
  /-- The tool calls are known. -/
  calls : TracksCalls s₀ h s

variable {s₀ s' : Session} {h : History} {k : EventKind}

theorem TracksCalls.concat (hs : TracksCalls s₀ h s)
    (hstart : ∀ callId name parent, k ≠ .toolCallStart callId name parent)
    (hend : ∀ callId, k ≠ .toolCallEnd callId)
    (harguments : s'.argumentBuffers.Holds h.CallOpen)
    (hparents : s'.callParents = s.callParents) : TracksCalls s₀ (h ++ [k]) s' := by
  have hstarted : (h ++ [k]).startedIds = h.startedIds := by
    rw [History.startedIds_concat]
    cases k with
    | toolCallStart callId name parent => exact absurd rfl (hstart callId name parent)
    | _ => exact List.append_nil _
  refine ⟨hstarted ▸ hs.started, hstarted ▸ hs.fresh, harguments.congr fun callId ↦ ?_,
    fun callId name parent hmem hopen ↦ ?_⟩
  · exact History.callOpen_concat (hstart callId) (hend callId)
  · rw [hparents]
    refine hs.parents callId name parent ?_ fun h ↦ hopen (List.mem_append_left _ h)
    simpa [Ne.symm (hstart callId name _)] using hmem

/-! ## One more event -/

theorem Tracks.startText (hs : Tracks s₀ h s) {id : String} (role : Role)
    (hid : .textMessageEnd id ∉ h) :
    Tracks s₀ (h ++ [.textMessageStart id role]) (s.startText id).session := by
  rw [(s.startText_eq id).2]
  refine ⟨Message.nodup_ensured hs.ids id, fun other ↦ ?_, ?_, ?_⟩
  · rw [Message.find?_ensured, History.message?_concat_textStart, hs.find?, hs.find?]
    by_cases hother : other = id <;> simp [hother]
  · exact hs.texts.insert "" fun other ↦ History.textOpen_concat_start role hid
  · exact hs.calls.concat nofun nofun hs.calls.arguments rfl

theorem Tracks.exists_find? (hs : Tracks s₀ h s) {id : String} (hid : h.touched id = true) :
    ∃ m, Message.find? s.messages id = some m ∧ h.message? s₀ id = some m := by
  obtain ⟨m, hm⟩ := Option.isSome_iff_exists.1 (History.message?_isSome_of_touched hid)
  exact ⟨m, (hs.find? id).trans hm, hm⟩

theorem Tracks.continueText (hs : Tracks s₀ h s) {id : String} (hid : h.TextOpen id)
    (delta : String) :
    ∃ text, (s.continueText id delta).outcome = .ok text ∧
      Tracks s₀ (h ++ [.textMessageContent id delta]) (s.continueText id delta).session := by
  obtain ⟨⟨role, hmem⟩, -⟩ := hid
  obtain ⟨m, hm, hmessage⟩ :=
    hs.exists_find? (History.touched_of_mem hmem (decide_eq_true rfl))
  obtain ⟨text, ms, houtcome, hsession, hids, hfind⟩ := exists_continueText hm delta
  rw [hsession]
  refine ⟨text, houtcome, hids ▸ hs.ids, fun other ↦ ?_, ?_, ?_⟩
  · rw [hfind, History.message?_concat_textContent, hs.find?]
    by_cases hother : other = id
    · simp [hother, hmessage]
    · simp [hother]
  · exact hs.texts.appendText id delta fun other ↦ History.textOpen_concat nofun nofun
  · exact hs.calls.concat nofun nofun hs.calls.arguments rfl

theorem Tracks.endText (hs : Tracks s₀ h s) (id : String) :
    Tracks s₀ (h ++ [.textMessageEnd id]) (s.endText id).session where
  ids := hs.ids
  find? other := by
    rw [History.message?_concat_textEnd]
    exact hs.find? other
  texts := hs.texts.closeText id fun other ↦ History.textOpen_concat_end
  calls := hs.calls.concat nofun nofun hs.calls.arguments rfl

theorem TracksCalls.concat_start (hs : TracksCalls s₀ h s) {callId : String}
    (name parent : String) (hstarted : callId ∉ h.startedIds) (hend : .toolCallEnd callId ∉ h)
    (hfresh : ∀ m ∈ s₀.messages, ∀ call ∈ m.toolCalls, call.id ≠ callId)
    (harguments : s'.argumentBuffers = s.argumentBuffers.insert callId "")
    (hparents : s'.callParents = s.callParents.insert callId parent) :
    TracksCalls s₀ (h ++ [.toolCallStart callId name (some parent)]) s' := by
  have hids : History.startedIds (h ++ [.toolCallStart callId name (some parent)]) =
      h.startedIds ++ [callId] := History.startedIds_concat _ _
  refine ⟨?_, ?_, ?_, fun other name' parent' hmem hopen ↦ ?_⟩
  · rw [hids, List.nodup_append]
    refine ⟨hs.started, List.nodup_singleton _, fun a ha b hb hab ↦ ?_⟩
    rw [hab, List.mem_singleton.1 hb] at ha
    exact hstarted ha
  · rw [hids]
    intro other hother
    rcases List.mem_append.1 hother with hother | hother
    · exact hs.fresh other hother
    · rw [List.mem_singleton.1 hother]
      exact hfresh
  · rw [harguments]
    exact hs.arguments.insert "" fun other ↦ History.callOpen_concat_start name parent hend
  · rw [hparents]
    rcases List.mem_append.1 hmem with hmem | hmem
    · -- a call started before is another one, so its parent is still known
      have hne : callId ≠ other := by
        rintro rfl
        exact hstarted (History.mem_startedIds.2 ⟨name', some parent', hmem⟩)
      rw [Dict.get?_insert_of_ne _ hne]
      exact hs.parents other name' parent' hmem fun h ↦ hopen (List.mem_append_left _ h)
    · cases List.mem_singleton.1 hmem
      exact Dict.get?_insert_self _ _ _

theorem Tracks.startCall (hs : Tracks s₀ h s) {callId : String} (name parent : String)
    (hstarted : callId ∉ h.startedIds) (harguments : h.arguments callId = "")
    (hend : .toolCallEnd callId ∉ h)
    (hfresh : ∀ m ∈ s₀.messages, ∀ call ∈ m.toolCalls, call.id ≠ callId) :
    ∃ text, (s.startCall callId name (some parent)).outcome = .ok text ∧
      Tracks s₀ (h ++ [.toolCallStart callId name (some parent)])
        (s.startCall callId name (some parent)).session := by
  have hensured : Message.find? (Message.ensured s.messages parent) parent =
      some ((h.message? s₀ parent).getD { id := parent, role := .assistant }) := by
    rw [Message.find?_ensured, if_pos rfl, hs.find?]
  -- whichever event has brought the parent about, it holds no call with this identifier
  have hcalls : ∀ call ∈
      ((h.message? s₀ parent).getD { id := parent, role := .assistant }).toolCalls,
      call.id ≠ callId := by
    intro call hcall hid
    cases hm : h.message? s₀ parent with
    | none =>
      rw [hm] at hcall
      cases hcall
    | some m =>
      rw [hm] at hcall
      rcases History.mem_toolCalls hm hcall with ⟨m, hmem, hcall⟩ | ⟨name, hmem⟩
      · exact hfresh m hmem call hcall hid
      · exact hstarted (hid ▸ History.mem_startedIds.2 ⟨name, some parent, hmem⟩)
  obtain ⟨text, ms, houtcome, hsession, hids, hfind⟩ := exists_startCall hensured hcalls name
  rw [hsession]
  refine ⟨text, houtcome, ?_, fun other ↦ ?_, ?_, ?_⟩
  · rw [hids]
    exact Message.nodup_ensured hs.ids parent
  · rw [hfind, History.message?_concat_callStart name parent harguments, Message.find?_ensured,
      hs.find? other]
    by_cases hother : other = parent <;> simp [hother]
  · exact hs.texts.congr fun other ↦ History.textOpen_concat nofun nofun
  · exact hs.calls.concat_start name parent hstarted hend hfresh rfl rfl

theorem Tracks.continueCall (hs : Tracks s₀ h s) {callId : String} (hid : h.CallOpen callId)
    (delta : String) :
    ∃ text, (s.continueCall callId delta).outcome = .ok text ∧
      Tracks s₀ (h ++ [.toolCallArgs callId delta]) (s.continueCall callId delta).session := by
  obtain ⟨⟨name, parent, hmem⟩, hend⟩ := hid
  have hfresh := hs.calls.fresh callId (History.mem_startedIds.2 ⟨name, some parent, hmem⟩)
  obtain ⟨m, hm, hmessage⟩ := hs.exists_find? (History.touched_of_mem hmem (decide_eq_true rfl))
  have hcalls : Message.appendCall? callId delta m.toolCalls =
      some (History.addArguments callId delta m.toolCalls) := by
    refine Message.appendCall?_eq_map delta ?_
      (History.pairwise_toolCalls hmessage hs.calls.started hfresh)
    obtain ⟨before, htoolCalls, -⟩ := History.message?_toolCalls hmessage
    refine ⟨h.call (callId, name), ?_, rfl⟩
    rw [htoolCalls]
    exact List.mem_append_right _ (List.mem_map_of_mem (History.mem_starts.2 hmem))
  obtain ⟨text, ms, houtcome, hsession, hids, hfind⟩ :=
    exists_continueCall (hs.calls.parents callId name parent hmem hend) hm hcalls
  rw [hsession]
  refine ⟨text, houtcome, hids ▸ hs.ids, fun other ↦ ?_, ?_, ?_⟩
  · rw [hfind, History.message?_concat_callArgs delta hfresh]
    by_cases hother : other = parent
    · rw [if_pos hother, hother, hmessage, Option.map_some]
    · -- no other message holds the tool call, because it was started in its parent alone
      rw [if_neg hother, hs.find?]
      refine (Option.map_id_apply.symm.trans (Option.map_congr fun m' hm' ↦ ?_))
      have hsame : History.addArguments callId delta m'.toolCalls = m'.toolCalls := by
        refine History.addArguments_of_forall_ne delta fun call hcall hcallId ↦ ?_
        rcases History.mem_toolCalls hm' hcall with ⟨m, hmem, hcall⟩ | ⟨name', hmem'⟩
        · exact hfresh m hmem call hcall hcallId
        · rw [hcallId] at hmem'
          exact hother (History.parent_eq_of_nodup_startedIds hs.calls.started hmem' hmem)
      rw [hsame]
      rfl
  · exact hs.texts.congr fun other ↦ History.textOpen_concat nofun nofun
  · exact hs.calls.concat nofun nofun
      (hs.calls.arguments.appendText callId delta fun other ↦ Iff.rfl) rfl

theorem Tracks.endCall (hs : Tracks s₀ h s) (callId : String) :
    Tracks s₀ (h ++ [.toolCallEnd callId]) (s.endCall callId).session where
  ids := hs.ids
  find? other := by
    rw [History.message?_concat_callEnd]
    exact hs.find? other
  texts := hs.texts.congr fun other ↦ History.textOpen_concat nofun nofun
  calls := by
    have hids : History.startedIds (h ++ [.toolCallEnd callId]) = h.startedIds :=
      (History.startedIds_concat _ _).trans (List.append_nil _)
    refine ⟨hids ▸ hs.calls.started, hids ▸ hs.calls.fresh, ?_,
      fun other name parent hmem hopen ↦ ?_⟩
    · exact hs.calls.arguments.closeText callId fun other ↦ History.callOpen_concat_end
    · have hne : callId ≠ other := by
        rintro rfl
        exact hopen (List.mem_append_right _ (List.mem_singleton_self _))
      refine (Dict.get?_erase_of_ne _ hne).trans ?_
      refine hs.calls.parents other name parent ?_ fun h ↦ hopen (List.mem_append_left _ h)
      simpa using hmem

/-- **One event.** What a history admits is handled without failure, and the session keeps up with
the history. -/
theorem Tracks.apply (hs : Tracks s₀ h s) (hk : h.Admits s₀ k) :
    ∃ text, (s.apply k).outcome = .ok text ∧ Tracks s₀ (h ++ [k]) (s.apply k).session := by
  cases k with
  | textMessageStart id role => exact ⟨"", (s.startText_eq id).1, hs.startText role hk⟩
  | textMessageContent id delta => exact hs.continueText hk delta
  | textMessageEnd id => exact ⟨_, rfl, hs.endText id⟩
  | toolCallStart callId name parent =>
    obtain ⟨hparent, hstarted, harguments, hend, hfresh⟩ := hk
    obtain ⟨parent, rfl⟩ := Option.isSome_iff_exists.1 hparent
    exact hs.startCall name parent hstarted harguments hend hfresh
  | toolCallArgs callId delta => exact hs.continueCall hk delta
  | toolCallEnd callId => exact ⟨_, rfl, hs.endCall callId⟩
  | _ => exact hk.elim

end Session

end AgentSession
