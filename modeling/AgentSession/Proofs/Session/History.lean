import AgentSession.Proofs.Message.Locate
import AgentSession.Session.Apply
import Mathlib.Data.List.Nodup
/-!
# Histories of streams

A history is what some events said, oldest first. This module tells from a history of text messages
and tool calls which messages there should be, without a session: `History.message?`.

## The messages of a history

A message is there if it was there before or if an event has touched it. Its text has grown by the
pieces for it, in their order (`History.text`). Its tool calls have grown by those started in it,
in the order of their starts, each with the pieces of arguments for it (`History.calls`). Each of
these is a sum over the history, so one more event adds what that event says: these are the
`_concat` equations.

## One more event

The remaining lemmas say what one more event of each kind does to the messages of a history, in the
words in which the operations of a session are described: a message is ensured, text or a tool call
is added to it, or arguments are added to a call of it.
-/

namespace AgentSession

namespace EventKind

/-! ## What one event adds -/

/-- The text that it adds to a message. -/
def textDelta? (id : String) : EventKind → Option String
  | .textMessageContent other delta => if other = id then some delta else none
  | _ => none

/-- The arguments that it adds to a tool call. -/
def argumentsDelta? (callId : String) : EventKind → Option String
  | .toolCallArgs other delta => if other = callId then some delta else none
  | _ => none

/-- The tool call that it starts in a message, with its name. -/
def startedIn? (id : String) : EventKind → Option (String × String)
  | .toolCallStart callId name (some parent) => if parent = id then some (callId, name) else none
  | _ => none

/-- The tool call that it starts. -/
def startedId? : EventKind → Option String
  | .toolCallStart callId _ _ => some callId
  | _ => none

/-- Whether it presupposes a message or brings it about. -/
def touches (id : String) : EventKind → Bool
  | .textMessageStart other _ | .textMessageContent other _ => other = id
  | .toolCallStart _ _ (some parent) => parent = id
  | _ => false

end EventKind

/-- What some events said, oldest first. -/
abbrev History := List EventKind

namespace History

/-! ## Sums over a history -/

/-- The text for a message. -/
def text (h : History) (id : String) : String := String.join (h.filterMap (·.textDelta? id))

/-- The arguments for a tool call. -/
def arguments (h : History) (callId : String) : String :=
  String.join (h.filterMap (·.argumentsDelta? callId))

/-- The tool calls started in a message, with their names. -/
def starts (h : History) (id : String) : List (String × String) := h.filterMap (·.startedIn? id)

/-- The identifiers of all tool calls started. -/
def startedIds (h : History) : List String := h.filterMap (·.startedId?)

/-- Whether a message was touched. -/
def touched (h : History) (id : String) : Bool := h.any (·.touches id)

/-- A tool call that was started with a name, with its arguments. -/
def call (h : History) (start : String × String) : ToolCall :=
  { id := start.1, function := { name := start.2, arguments := h.arguments start.1 } }

/-- The tool calls started in a message, with their arguments. -/
def calls (h : History) (id : String) : List ToolCall := (h.starts id).map h.call

variable (h : History) (k : EventKind) (id : String)

theorem filterMap_concat {α : Type} (f : EventKind → Option α) :
    (h ++ [k]).filterMap f = h.filterMap f ++ (f k).toList := by
  rw [List.filterMap_append]
  cases hk : f k <;> simp [hk]

theorem join_concat (texts : List String) (delta : Option String) :
    String.join (texts ++ delta.toList) = String.join texts ++ delta.getD "" := by
  cases delta with
  | none => simp
  | some delta => simp [String.join, List.foldl_append]

theorem text_concat : (h ++ [k]).text id = h.text id ++ (k.textDelta? id).getD "" := by
  rw [text, filterMap_concat, join_concat, text]

theorem arguments_concat :
    (h ++ [k]).arguments id = h.arguments id ++ (k.argumentsDelta? id).getD "" := by
  rw [arguments, filterMap_concat, join_concat, arguments]

theorem starts_concat : (h ++ [k]).starts id = h.starts id ++ (k.startedIn? id).toList := by
  rw [starts, filterMap_concat, starts]

theorem startedIds_concat : (h ++ [k]).startedIds = h.startedIds ++ k.startedId?.toList := by
  rw [startedIds, filterMap_concat, startedIds]

theorem touched_concat : (h ++ [k]).touched id = (h.touched id || k.touches id) := by
  rw [touched, List.any_append, touched]
  simp

/-- Where no event touches a message, nothing is gathered of what only such an event says. -/
theorem filterMap_eq_nil_of_touched_eq_false {α : Type} {f : EventKind → Option α} {h : History}
    {id : String} (hf : ∀ k, k.touches id = false → f k = none) (hid : h.touched id = false) :
    h.filterMap f = [] := by
  refine List.filterMap_eq_nil_iff.2 fun k hk ↦ hf k ?_
  simpa using List.any_eq_false.1 hid k hk

theorem starts_eq_nil_of_touched_eq_false {h : History} {id : String} (hid : h.touched id = false) :
    h.starts id = [] := by
  refine filterMap_eq_nil_of_touched_eq_false (fun k hk ↦ ?_) hid
  unfold EventKind.touches at hk
  unfold EventKind.startedIn?
  split
  · simpa using hk
  · rfl

theorem text_eq_empty_of_touched_eq_false {h : History} {id : String}
    (hid : h.touched id = false) : h.text id = "" := by
  have hnone : h.filterMap (·.textDelta? id) = [] := by
    refine filterMap_eq_nil_of_touched_eq_false (fun k hk ↦ ?_) hid
    unfold EventKind.touches at hk
    unfold EventKind.textDelta?
    split
    · simpa using hk
    · rfl
  rw [text, hnone]
  rfl

/-! ## The messages of a history -/

/-- What has become of a message. -/
def grow (h : History) (m : Message) : Message :=
  { m with content := m.content ++ h.text m.id, toolCalls := m.toolCalls ++ h.calls m.id }

/-- A message as it was in a session, or as it was when it was first touched. -/
def base? (h : History) (s : Session) (id : String) : Option Message :=
  (Message.find? s.messages id).or
    (if h.touched id then some { id, role := .assistant } else none)

/-- The message that there should be after a history. -/
def message? (h : History) (s : Session) (id : String) : Option Message :=
  (h.base? s id).map h.grow

theorem message?_nil (s : Session) (id : String) :
    message? [] s id = Message.find? s.messages id := by
  have hgrow (m : Message) : grow [] m = m := by
    simp [grow, text, calls, starts]
  have hbase : base? [] s id = Message.find? s.messages id := Option.or_none
  rw [message?, hbase]
  exact (Option.map_congr fun m _ ↦ hgrow m).trans Option.map_id_apply

variable {h : History} {s : Session} {m : Message} {id : String}

theorem grow_of_touched_eq_false (hid : h.touched id = false) :
    h.grow { id, role := .assistant } = { id, role := .assistant } := by
  simp [grow, calls, text_eq_empty_of_touched_eq_false hid, starts_eq_nil_of_touched_eq_false hid]

theorem base?_cases (hm : h.base? s id = some m) :
    m.id = id ∧ (m ∈ s.messages ∨ m = { id, role := .assistant }) := by
  rw [base?] at hm
  rcases Option.or_eq_some_iff.1 hm with hfind | ⟨-, htouched⟩
  · exact ⟨Message.id_of_find? hfind, .inl (Message.mem_of_find? hfind)⟩
  · split at htouched
    · obtain rfl := Option.some.inj htouched
      exact ⟨rfl, .inr rfl⟩
    · cases htouched

theorem message?_isSome_of_touched (hid : h.touched id = true) : (h.message? s id).isSome := by
  rw [message?, base?, hid, if_pos rfl, Option.isSome_map, Option.isSome_or]
  simp

/-! ## One more event -/

/-- If an event changes messages by `f`, it first ensures a message that it touches. -/
theorem message?_concat {k : EventKind} {f : Message → Message}
    (hf : ∀ m, (h ++ [k]).base? s id = some m → (h ++ [k]).grow m = f (h.grow m)) :
    (h ++ [k]).message? s id =
      (if k.touches id then some ((h.message? s id).getD { id, role := .assistant })
      else h.message? s id).map f := by
  have hmap : (h ++ [k]).message? s id = (((h ++ [k]).base? s id).map h.grow).map f := by
    rw [message?, Option.map_map]
    exact Option.map_congr hf
  rw [hmap]
  congr 1
  cases hk : k.touches id with
  | false => simp only [message?, base?, touched_concat, hk, Bool.or_false, Bool.false_eq_true,
      if_false]
  | true =>
    simp only [message?, base?, touched_concat, hk, Bool.or_true, if_true]
    cases Message.find? s.messages id with
    | some m => rfl
    | none =>
      -- a message that is touched for the first time has not grown yet
      cases hid : h.touched id with
      | true => rfl
      | false => simp [grow_of_touched_eq_false hid]

/-- Adds arguments to the tool calls that have an identifier. -/
def addArguments (callId delta : String) (calls : List ToolCall) : List ToolCall :=
  calls.map fun call ↦ if call.id = callId then call.append delta else call

theorem addArguments_of_forall_ne {callId : String} (delta : String) {calls : List ToolCall}
    (hcalls : ∀ call ∈ calls, call.id ≠ callId) : addArguments callId delta calls = calls :=
  (List.map_congr_left fun call hcall ↦ if_neg (hcalls call hcall)).trans (List.map_id _)

/-- What an event that adds no arguments changes about a message. -/
theorem grow_concat {k : EventKind} (hk : ∀ callId, k.argumentsDelta? callId = none)
    (m : Message) :
    (h ++ [k]).grow m =
      { h.grow m with
        content := (h.grow m).content ++ (k.textDelta? m.id).getD ""
        toolCalls := (h.grow m).toolCalls ++ (k.startedIn? m.id).toList.map h.call } := by
  have hcall : (h ++ [k]).call = h.call := by
    funext start
    simp only [call, arguments_concat, hk, Option.getD_none, String.append_empty]
  simp only [grow, text_concat, calls, hcall, starts_concat, List.map_append, String.append_assoc,
    List.append_assoc]

theorem calls_concat_args (callId delta : String) :
    calls (h ++ [.toolCallArgs callId delta]) id = addArguments callId delta (h.calls id) := by
  have hstarts : starts (h ++ [.toolCallArgs callId delta]) id = h.starts id := by
    rw [starts_concat]
    exact List.append_nil _
  rw [calls, hstarts, calls, addArguments, List.map_map]
  refine List.map_congr_left fun start _ ↦ ?_
  rw [Function.comp_apply]
  by_cases hid : callId = start.1
  · rw [if_pos (show (h.call start).id = callId from hid.symm)]
    simp [call, arguments_concat, EventKind.argumentsDelta?, hid, ToolCall.append]
  · rw [if_neg (show ¬(h.call start).id = callId from Ne.symm hid)]
    simp [call, arguments_concat, EventKind.argumentsDelta?, hid]

theorem id_of_message? (hm : h.message? s id = some m) : m.id = id := by
  obtain ⟨m, hbase, rfl⟩ := Option.map_eq_some_iff.1 hm
  exact (base?_cases hbase).1

/-- If an event touches one message and changes only that, by `f`, the message is ensured and
changed by `f`. -/
theorem message?_concat_at {k : EventKind} {target : String} {f : Message → Message}
    (htouches : k.touches id = decide (target = id))
    (hf : ∀ m, (h ++ [k]).grow m = if m.id = target then f (h.grow m) else h.grow m) :
    (h ++ [k]).message? s id =
      if id = target then some (f ((h.message? s id).getD { id, role := .assistant }))
      else h.message? s id := by
  rw [message?_concat (f := fun m ↦ if m.id = target then f m else m) fun m _ ↦ hf m, htouches]
  by_cases hid : target = id
  · have hensured : ((h.message? s id).getD { id, role := .assistant }).id = target := by
      cases hm : h.message? s id with
      | none => exact hid.symm
      | some m => exact (id_of_message? hm).trans hid.symm
    rw [decide_eq_true hid, if_pos rfl, Option.map_some, if_pos hensured, if_pos hid.symm]
  · rw [decide_eq_false hid, if_neg (Ne.symm hid), if_neg Bool.false_ne_true]
    refine (Option.map_congr fun m hm ↦ ?_).trans Option.map_id_apply
    rw [id_of_message? hm, if_neg (Ne.symm hid)]
    rfl

/-! ### Text messages -/

theorem message?_concat_textStart (started : String) (role : Role) :
    message? (h ++ [.textMessageStart started role]) s id =
      if id = started then some ((h.message? s id).getD { id, role := .assistant })
      else h.message? s id := by
  refine message?_concat_at (f := fun m ↦ m) rfl fun m ↦ ?_
  rw [grow_concat fun _ ↦ rfl]
  simp [EventKind.textDelta?, EventKind.startedIn?]

theorem message?_concat_textContent (continued delta : String) :
    message? (h ++ [.textMessageContent continued delta]) s id =
      if id = continued then
        some (((h.message? s id).getD { id, role := .assistant }).append delta)
      else h.message? s id := by
  refine message?_concat_at (f := fun m ↦ m.append delta) rfl fun m ↦ ?_
  rw [grow_concat fun _ ↦ rfl]
  by_cases hid : m.id = continued
  · simp [EventKind.textDelta?, EventKind.startedIn?, hid, Message.append]
  · simp [EventKind.textDelta?, EventKind.startedIn?, hid, Ne.symm hid]

theorem message?_concat_textEnd (ended : String) :
    message? (h ++ [.textMessageEnd ended]) s id = h.message? s id := by
  refine (message?_concat (f := fun m ↦ m) fun m _ ↦ ?_).trans Option.map_id_apply
  rw [grow_concat fun _ ↦ rfl]
  simp [EventKind.textDelta?, EventKind.startedIn?]

/-! ### Tool calls -/

theorem message?_concat_callStart {callId : String} (name parent : String)
    (hfresh : h.arguments callId = "") :
    message? (h ++ [.toolCallStart callId name (some parent)]) s id =
      if id = parent then
        some (((h.message? s id).getD { id, role := .assistant }).addToolCall
          (ToolCall.new callId name))
      else h.message? s id := by
  refine message?_concat_at (f := fun m ↦ m.addToolCall (ToolCall.new callId name)) rfl fun m ↦ ?_
  rw [grow_concat fun _ ↦ rfl]
  by_cases hid : m.id = parent
  · simp [EventKind.textDelta?, EventKind.startedIn?, hid, Message.addToolCall, ToolCall.new, call,
      hfresh]
  · simp [EventKind.textDelta?, EventKind.startedIn?, Ne.symm hid, hid]

theorem message?_concat_callArgs {callId : String} (delta : String)
    (hfresh : ∀ m ∈ s.messages, ∀ call ∈ m.toolCalls, call.id ≠ callId) :
    message? (h ++ [.toolCallArgs callId delta]) s id =
      (h.message? s id).map fun m ↦
        { m with toolCalls := addArguments callId delta m.toolCalls } := by
  refine (message?_concat fun m hm ↦ ?_)
  have htext (id : String) : text (h ++ [.toolCallArgs callId delta]) id = h.text id := by
    rw [text_concat]
    exact String.append_empty
  have hbase : addArguments callId delta m.toolCalls = m.toolCalls := by
    refine addArguments_of_forall_ne delta fun call hcall ↦ ?_
    rcases (base?_cases hm).2 with hmem | rfl
    · exact hfresh m hmem call hcall
    · cases hcall
  have happend : addArguments callId delta (m.toolCalls ++ h.calls m.id) =
      m.toolCalls ++ addArguments callId delta (h.calls m.id) := by
    conv_rhs => rw [← hbase]
    exact List.map_append
  simp only [grow, htext, calls_concat_args, happend]

theorem message?_concat_callEnd (ended : String) :
    message? (h ++ [.toolCallEnd ended]) s id = h.message? s id := by
  refine (message?_concat (f := fun m ↦ m) fun m _ ↦ ?_).trans Option.map_id_apply
  rw [grow_concat fun _ ↦ rfl]
  simp [EventKind.textDelta?, EventKind.startedIn?]

/-! ## The tool calls of a message -/

theorem mem_starts {callId name : String} :
    (callId, name) ∈ h.starts id ↔ .toolCallStart callId name (some id) ∈ h := by
  rw [starts, List.mem_filterMap]
  constructor
  · rintro ⟨k, hk, hstarted⟩
    unfold EventKind.startedIn? at hstarted
    split at hstarted
    · split at hstarted
      · rename_i hparent
        cases hstarted
        exact hparent ▸ hk
      · cases hstarted
    · cases hstarted
  · intro hk
    exact ⟨_, hk, if_pos rfl⟩

theorem mem_startedIds {callId : String} :
    callId ∈ h.startedIds ↔ ∃ name parent, .toolCallStart callId name parent ∈ h := by
  rw [startedIds, List.mem_filterMap]
  constructor
  · rintro ⟨k, hk, hstarted⟩
    unfold EventKind.startedId? at hstarted
    split at hstarted
    · cases hstarted
      exact ⟨_, _, hk⟩
    · cases hstarted
  · rintro ⟨name, parent, hk⟩
    exact ⟨_, hk, rfl⟩

theorem filterMap_sublist_filterMap {α β : Type} {f g : α → Option β}
    (hfg : ∀ a, f a = none ∨ f a = g a) (l : List α) :
    (l.filterMap f).Sublist (l.filterMap g) := by
  induction l with
  | nil => exact List.Sublist.slnil
  | cons a l ih =>
    rw [List.filterMap_cons, List.filterMap_cons]
    rcases hfg a with hf | hf
    · rw [hf]
      cases g a with
      | none => exact ih
      | some b => exact ih.cons b
    · rw [hf]
      cases g a with
      | none => exact ih
      | some b => exact ih.cons_cons b

theorem map_fst_starts_sublist (h : History) (id : String) :
    ((h.starts id).map Prod.fst).Sublist h.startedIds := by
  rw [starts, List.map_filterMap]
  refine filterMap_sublist_filterMap (fun k ↦ ?_) h
  unfold EventKind.startedIn?
  split
  · split
    · exact .inr rfl
    · exact .inl rfl
  · exact .inl rfl

theorem eq_of_nodup_filterMap {α β : Type} {f : α → Option β} {l : List α}
    (hl : (l.filterMap f).Nodup) {a b : α} {c : β} (ha : a ∈ l) (hb : b ∈ l) (hfa : f a = some c)
    (hfb : f b = some c) : a = b := by
  induction l with
  | nil => cases ha
  | cons x l ih =>
    have hmem {y : α} (hy : y ∈ l) (hfy : f y = some c) : c ∈ l.filterMap f :=
      List.mem_filterMap.2 ⟨y, hy, hfy⟩
    rcases List.mem_cons.1 ha with rfl | hal
    · rcases List.mem_cons.1 hb with rfl | hbl
      · rfl
      · rw [List.filterMap_cons_some hfa] at hl
        exact absurd (hmem hbl hfb) (List.nodup_cons.1 hl).1
    · rcases List.mem_cons.1 hb with rfl | hbl
      · rw [List.filterMap_cons_some hfb] at hl
        exact absurd (hmem hal hfa) (List.nodup_cons.1 hl).1
      · refine ih ?_ hal hbl
        exact hl.sublist ((List.sublist_cons_self x l).filterMap f)

/-- A tool call that is started once is started in one message. -/
theorem parent_eq_of_nodup_startedIds (hstarted : h.startedIds.Nodup)
    {callId name name' parent parent' : String}
    (hmem : .toolCallStart callId name (some parent) ∈ h)
    (hmem' : .toolCallStart callId name' (some parent') ∈ h) : parent = parent' := by
  cases eq_of_nodup_filterMap hstarted hmem hmem' rfl rfl
  rfl

theorem message?_toolCalls (hm : h.message? s id = some m) :
    ∃ before, m.toolCalls = before ++ h.calls id ∧
      ∀ call ∈ before, ∃ m ∈ s.messages, call ∈ m.toolCalls := by
  obtain ⟨base, hbase, rfl⟩ := Option.map_eq_some_iff.1 hm
  obtain ⟨rfl, hbase⟩ := base?_cases hbase
  refine ⟨base.toolCalls, rfl, fun call hcall ↦ ?_⟩
  rcases hbase with hmem | hnew
  · exact ⟨base, hmem, hcall⟩
  · rw [hnew] at hcall
    cases hcall

theorem mem_calls {call : ToolCall} (hcall : call ∈ h.calls id) :
    ∃ name, .toolCallStart call.id name (some id) ∈ h := by
  obtain ⟨⟨callId, name⟩, hstart, rfl⟩ := List.mem_map.1 hcall
  exact ⟨name, mem_starts.1 hstart⟩

/-- A tool call of a message was there before, or was started in it. -/
theorem mem_toolCalls (hm : h.message? s id = some m) {call : ToolCall}
    (hcall : call ∈ m.toolCalls) :
    (∃ m ∈ s.messages, call ∈ m.toolCalls) ∨
      ∃ name, .toolCallStart call.id name (some id) ∈ h := by
  obtain ⟨before, hcalls, hbefore⟩ := message?_toolCalls hm
  rw [hcalls] at hcall
  exact (List.mem_append.1 hcall).imp (hbefore call) mem_calls

/-- A tool call that is new and started once is in a message once. -/
theorem pairwise_toolCalls (hm : h.message? s id = some m) (hstarted : h.startedIds.Nodup)
    {callId : String} (hfresh : ∀ m ∈ s.messages, ∀ call ∈ m.toolCalls, call.id ≠ callId) :
    m.toolCalls.Pairwise fun call other ↦ call.id = callId → other.id ≠ callId := by
  obtain ⟨before, hcalls, hbefore⟩ := message?_toolCalls hm
  have hne : ∀ call ∈ before, call.id ≠ callId := by
    intro call hcall
    obtain ⟨m, hmem, hcall⟩ := hbefore call hcall
    exact hfresh m hmem call hcall
  have hnodup : ((h.calls id).map ToolCall.id).Nodup := by
    rw [calls, List.map_map]
    exact hstarted.sublist (h.map_fst_starts_sublist id)
  -- a call that was there before has another identifier, and those started are distinct
  rw [hcalls, List.pairwise_append]
  refine ⟨?_, ?_, fun call hcall _ _ hid ↦ absurd hid (hne call hcall)⟩
  · exact List.pairwise_of_forall_mem_list fun call hcall _ _ hid ↦ absurd hid (hne call hcall)
  · refine (List.pairwise_map.1 hnodup).imp fun hids hid ↦ ?_
    exact fun hother ↦ hids (hid.trans hother.symm)

end History

end AgentSession
