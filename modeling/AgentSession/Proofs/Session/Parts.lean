import AgentSession.Proofs.Session.Operation
/-!
# The parts of a session

A session has three parts that events may change: the conversation, which is the messages with
everything that is open in them; the state document with its history; and the result. Each kind of
event belongs to one of them or to none (`EventKind.part?`). It changes only that part, and what it
does there, and whether it fails, depends on that part alone.

For the conversation this is one equation: an event of the conversation does the same to a session
whose other parts have been exchanged (`Session.apply_exchange`). That these events leave the other
parts alone is the same equation for a session that is given the parts that it has.

So a part is what its own events have made of it, whatever came between them
(`Session.samePart_handleTurns`), provided that no subscriber interferes. Events of different parts
may be interleaved in any way (`Session.parts_handleTurns`).
-/

namespace AgentSession

variable {σ τ : Type}

/-! ## Parts -/

/-- A part of a session that events may change. -/
inductive SessionPart where
  | conversation
  | document
  | result
deriving DecidableEq, Repr

/-- The part that an event belongs to, if it changes anything. -/
def EventKind.part? : EventKind → Option SessionPart
  | .textMessageStart _ _ | .textMessageContent _ _ | .textMessageEnd _ | .textMessageChunk _ _ _
  | .thinkingTextMessageStart | .thinkingTextMessageContent _ | .thinkingTextMessageEnd
  | .toolCallStart _ _ _ | .toolCallArgs _ _ | .toolCallEnd _ | .toolCallChunk _ _ _ _
  | .toolCallResult _ _ _ | .messagesSnapshot _ => some .conversation
  | .stateSnapshot _ | .stateDelta _ => some .document
  | .runFinished _ _ _ => some .result
  | .thinkingStart _ | .thinkingEnd | .runStarted _ _ | .runError _ _ | .stepStarted _
  | .stepFinished _ | .raw _ _ | .custom _ _ => none

/-- The messages, with everything that is open in them and the source of new identifiers. -/
structure Conversation where
  messages : List Message
  textBuffers : Dict String
  argumentBuffers : Dict String
  callParents : Dict String
  openThinking : Option String
  ids : IdSource

/-- What a part is. -/
inductive PartValue where
  | conversation (c : Conversation)
  | document (store : StateStore)
  | result (result : Option Json)

namespace Session

def conversation (s : Session) : Conversation :=
  ⟨s.messages, s.textBuffers, s.argumentBuffers, s.callParents, s.openThinking, s.ids⟩

def part (s : Session) : SessionPart → PartValue
  | .conversation => .conversation s.conversation
  | .document => .document s.store
  | .result => .result s.result

/-- The three parts are the whole session, but for the request of the run. -/
theorem eq_of_part_eq {s s' : Session} (h : s.part = s'.part) (hinput : s.input = s'.input) :
    s = s' := by
  have hconversation : s.conversation = s'.conversation :=
    PartValue.conversation.inj (congrFun h .conversation)
  have hstore : s.store = s'.store := PartValue.document.inj (congrFun h .document)
  have hresult : s.result = s'.result := PartValue.result.inj (congrFun h .result)
  obtain ⟨messages, store, result, input, textBuffers, argumentBuffers, callParents, openThinking,
    ids⟩ := s
  cases hconversation
  cases hstore
  cases hresult
  cases hinput
  rfl

end Session

/-! ## Exchanging the other parts -/

/-- The session with another state document and history, another result, and another request. -/
def Session.exchange (s : Session) (store : StateStore) (result : Option Json)
    (input : Option RunInput) : Session :=
  { s with store, result, input }

def Effect.exchange (x : Effect) (store : StateStore) (result : Option Json)
    (input : Option RunInput) : Effect :=
  { x with session := x.session.exchange store result input }

namespace Session

variable (s : Session) (store : StateStore) (result : Option Json) (input : Option RunInput)

theorem startText_exchange (id : String) :
    (s.exchange store result input).startText id =
      (s.startText id).exchange store result input := by
  simp only [startText, show (s.exchange store result input).messages = s.messages from rfl]
  split <;> rfl

theorem chunkText_exchange (id : String) (role : Option Role) (delta : String) :
    (s.exchange store result input).chunkText id role delta =
      (s.chunkText id role delta).exchange store result input := by
  have htarget : (s.exchange store result input).chunkTarget id =
      ((s.chunkTarget id).1, (s.chunkTarget id).2.exchange store result input) := by
    simp only [chunkTarget, show (s.exchange store result input).messages = s.messages from rfl]
    split
    · split <;> rfl
    · rfl
  simp only [chunkText, htarget]
  rcases s.chunkTarget id with ⟨target, located⟩
  simp only [show (located.exchange store result input).messages = located.messages from rfl]
  cases Message.appendTo? located.messages target delta with
  | some messages => rfl
  | none => rfl

theorem continueThinking_exchange (delta : String) :
    (s.exchange store result input).continueThinking delta =
      (s.continueThinking delta).exchange store result input := by
  obtain ⟨messages, _, _, _, textBuffers, argumentBuffers, callParents, openThinking, ids⟩ := s
  cases messages with
  | nil => rfl
  | cons m ms =>
    cases openThinking with
    | none => rfl
    | some id => rfl

theorem endThinking_exchange :
    (s.exchange store result input).endThinking = s.endThinking.exchange store result input := by
  obtain ⟨messages, _, _, _, textBuffers, argumentBuffers, callParents, openThinking, ids⟩ := s
  cases openThinking with
  | none => rfl
  | some id => rfl

theorem resolveParent_exchange (requested : Option String) :
    (s.exchange store result input).resolveParent requested =
      ((s.resolveParent requested).1, (s.resolveParent requested).2.1.exchange store result input,
        (s.resolveParent requested).2.2) := by
  simp only [resolveParent, show (s.exchange store result input).messages = s.messages from rfl]
  cases requested with
  | some id =>
    dsimp only
    split <;> rfl
  | none =>
    dsimp only
    split <;> rfl

theorem openToolCall_exchange (callId name : String) (requested : Option String) :
    (s.exchange store result input).openToolCall callId name requested =
      (s.openToolCall callId name requested).exchange store result input := by
  simp only [openToolCall, resolveParent_exchange]
  rcases s.resolveParent requested with ⟨parentId, resolved, notices⟩
  simp only [show (resolved.exchange store result input).messages = resolved.messages from rfl]
  cases Message.find? resolved.messages parentId with
  | none => rfl
  | some parent =>
    dsimp only
    split <;> rfl

theorem startCall_exchange (callId name : String) (requested : Option String) :
    (s.exchange store result input).startCall callId name requested =
      (s.startCall callId name requested).exchange store result input := by
  simp only [startCall, openToolCall_exchange]
  rcases s.openToolCall callId name requested with ⟨opened, notices, failure | parentId⟩
  · rfl
  · rfl

theorem chunkCall_exchange (callId : String) (name requested : Option String) (delta : String) :
    (s.exchange store result input).chunkCall callId name requested delta =
      (s.chunkCall callId name requested delta).exchange store result input := by
  have hlook : (s.exchange store result input).appendArguments? callId delta =
      s.appendArguments? callId delta := rfl
  simp only [chunkCall, hlook, openToolCall_exchange]
  split
  · rfl
  · rcases s.openToolCall callId (name.getD "") requested with ⟨opened, notices, failure | parentId⟩
    · rfl
    · rfl

theorem resultOfCall_exchange (id : Option String) (callId text : String) :
    (s.exchange store result input).resultOfCall id callId text =
      (s.resultOfCall id callId text).exchange store result input := by
  simp only [resultOfCall, show (s.exchange store result input).messages = s.messages from rfl]
  cases id.filter fun id ↦ !Message.has s.messages id with
  | some id => rfl
  | none => rfl

variable {s s' : Session} {p : SessionPart} {k : EventKind}

/-- An event of the conversation does the same to a session with other parts. -/
theorem apply_exchange (h : k.part? = some .conversation) :
    (s.exchange store result input).apply k = (s.apply k).exchange store result input := by
  cases k with
  | textMessageStart id role => exact s.startText_exchange store result input id
  | textMessageChunk id role delta => exact s.chunkText_exchange store result input id role delta
  | thinkingTextMessageContent delta =>
    exact s.continueThinking_exchange store result input delta
  | thinkingTextMessageEnd => exact s.endThinking_exchange store result input
  | toolCallStart callId name requested =>
    exact s.startCall_exchange store result input callId name requested
  | toolCallChunk callId name requested delta =>
    exact s.chunkCall_exchange store result input callId name requested delta
  | toolCallResult id callId text => exact s.resultOfCall_exchange store result input id callId text
  | stateSnapshot _ | stateDelta _ | runFinished _ _ _ | thinkingStart _ | thinkingEnd
  | runStarted _ _ | runError _ _ | stepStarted _ | stepFinished _ | raw _ _ | custom _ _ => cases h
  | _ => rfl

/-! ## Single events -/

/-- An event of the conversation leaves the other parts as they are. -/
theorem apply_of_conversation (h : k.part? = some .conversation) :
    (s.apply k).session.store = s.store ∧ (s.apply k).session.result = s.result ∧
      (s.apply k).session.input = s.input := by
  have hsame : s.apply k = (s.apply k).exchange s.store s.result s.input :=
    apply_exchange s.store s.result s.input h
  rw [hsame]
  exact ⟨rfl, rfl, rfl⟩

theorem apply_stateDelta_eq (s : Session) (delta : Json) :
    (s.apply (.stateDelta delta)).session =
        { s with store := (s.store.patch delta).toOption.getD s.store } ∧
      (s.apply (.stateDelta delta)).outcome = (s.store.patch delta).map fun _ ↦ "" := by
  change (s.patchState delta).session = _ ∧ (s.patchState delta).outcome = _
  rw [patchState]
  cases s.store.patch delta with
  | error failure => exact ⟨rfl, rfl⟩
  | ok store => exact ⟨rfl, rfl⟩

theorem apply_runFinished_eq (s : Session) (threadId runId : String) (result : Json) :
    s.apply (.runFinished threadId runId result) =
      { session := { s with result := if result.isNull then s.result else some result } } := by
  change Effect.mk _ _ _ = _
  split <;> rfl

/-- An event changes no part but its own. -/
theorem part_apply_of_ne (h : k.part? ≠ some p) : (s.apply k).session.part p = s.part p := by
  by_cases hconversation : k.part? = some .conversation
  · obtain ⟨hstore, hresult, -⟩ := apply_of_conversation (s := s) hconversation
    cases p with
    | conversation => exact absurd hconversation h
    | document => exact congrArg PartValue.document hstore
    | result => exact congrArg PartValue.result hresult
  · cases k with
    | stateDelta delta =>
      rw [(s.apply_stateDelta_eq delta).1]
      cases p with
      | document => exact absurd rfl h
      | conversation => rfl
      | result => rfl
    | stateSnapshot snapshot =>
      cases p with
      | document => exact absurd rfl h
      | conversation => rfl
      | result => rfl
    | runFinished threadId runId result =>
      rw [apply_runFinished_eq]
      cases p with
      | result => exact absurd rfl h
      | conversation => rfl
      | document => rfl
    | thinkingStart _ | thinkingEnd | runStarted _ _ | runError _ _ | stepStarted _
    | stepFinished _ | raw _ _ | custom _ _ => rfl
    | _ => exact absurd rfl hconversation

theorem apply_input (s : Session) (k : EventKind) : (s.apply k).session.input = s.input := by
  by_cases hconversation : k.part? = some .conversation
  · exact (apply_of_conversation hconversation).2.2
  · cases k with
    | stateDelta delta => rw [(s.apply_stateDelta_eq delta).1]
    | runFinished threadId runId result => rw [apply_runFinished_eq]
    | stateSnapshot _ | thinkingStart _ | thinkingEnd | runStarted _ _ | runError _ _
    | stepStarted _ | stepFinished _ | raw _ _ | custom _ _ => rfl
    | _ => exact absurd rfl hconversation

/-- What an event does to its part, and whether it fails, depends on that part alone. -/
theorem apply_eq_of_part_eq (hs : s.part p = s'.part p) (h : k.part? = some p) :
    (s.apply k).session.part p = (s'.apply k).session.part p ∧
      (s.apply k).outcome = (s'.apply k).outcome := by
  cases p with
  | conversation =>
    have hexchange : s' = s.exchange s'.store s'.result s'.input := by
      refine eq_of_part_eq (funext fun p ↦ ?_) rfl
      cases p with
      | conversation => exact hs.symm
      | document => rfl
      | result => rfl
    rw [hexchange, apply_exchange _ _ _ h]
    exact ⟨rfl, rfl⟩
  | document =>
    have hstore : s.store = s'.store := PartValue.document.inj hs
    cases k with
    | stateSnapshot snapshot =>
      refine ⟨congrArg PartValue.document ?_, rfl⟩
      change s.store.set _ = s'.store.set _
      rw [hstore]
    | stateDelta delta =>
      obtain ⟨hsession, houtcome⟩ := s.apply_stateDelta_eq delta
      obtain ⟨hsession', houtcome'⟩ := s'.apply_stateDelta_eq delta
      rw [hsession, hsession', houtcome, houtcome', hstore]
      exact ⟨rfl, rfl⟩
    | _ => cases h
  | result =>
    have hresult : s.result = s'.result := PartValue.result.inj hs
    cases k with
    | runFinished threadId runId result =>
      rw [apply_runFinished_eq, apply_runFinished_eq, hresult]
      exact ⟨rfl, rfl⟩
    | _ => cases h

end Session

/-! ## Events and those who are asked -/

/-- The subscriber never asks for anything and never fails. -/
structure Subscriber.Silent (b : Subscriber σ) : Prop where
  onEvent : ∀ e view memory, (b.onEvent e view memory).1 = .ok .nothing
  onKind : ∀ k text view memory, (b.onKind k text view memory).1 = .ok .nothing

theorem Subscriber.askAll_of_forall {ask : Subscriber σ → σ → Answer σ} {bs : List (Subscriber σ)}
    (h : ∀ b ∈ bs, ∀ memory, (ask b memory).1 = .ok .nothing) (memory : σ) :
    (askAll ask bs memory).1 = .ok .nothing := by
  induction bs generalizing memory with
  | nil => rfl
  | cons b bs ih =>
    obtain ⟨hb, hbs⟩ := List.forall_mem_cons.1 h
    have hanswer : ask b memory = (.ok .nothing, (ask b memory).2) := Prod.ext (hb memory) rfl
    have hrest : askAll ask bs (ask b memory).2 =
        (.ok .nothing, (askAll ask bs (ask b memory).2).2) := Prod.ext (ih hbs _) rfl
    rw [askAll, hanswer]
    dsimp only
    rw [if_neg (show ¬Mutation.nothing.stop = true from nofun), hrest]
    rfl

/-- An event with the subscribers that are asked about it and what they remember. -/
structure Turn (σ : Type) where
  subscribers : List (Subscriber σ)
  event : Event
  memory : σ

namespace Session

def handleTurn (s : Session) (t : Turn σ) : Handled σ := s.handle t.subscribers t.event t.memory

/-- No subscriber asks for anything or fails, when asked in general or about what the event says. -/
structure Quiet (s : Session) (t : Turn σ) : Prop where
  general : (s.askGeneral t.subscribers t.event t.memory).1 = .ok .nothing
  kind : ∀ text, (s.apply t.event.kind).outcome = .ok text →
    ((s.apply t.event.kind).session.askKind t.subscribers t.event.kind text
      (s.memoryAfter t.subscribers t.event t.memory)).1 = .ok .nothing

variable {s s' : Session} {t : Turn σ} {turns : List (Turn σ)} {p : SessionPart}

/-- Where no subscriber interferes, handling an event is applying it. -/
theorem handleTurn_of_quiet (h : s.Quiet t) :
    (s.handleTurn t).session = (s.apply t.event.kind).session ∧
      (s.handleTurn t).outcome = (s.apply t.event.kind).outcome.map fun _ ↦ .nothing := by
  have hpasses : s.passes t.subscribers t.event t.memory = true :=
    passes_iff.2 ⟨.nothing, h.general, rfl⟩
  rw [handleTurn]
  cases houtcome : (s.apply t.event.kind).outcome with
  | error failure =>
    rw [handle_of_apply_error hpasses houtcome]
    exact ⟨rfl, rfl⟩
  | ok text =>
    rw [handle_of_apply_ok hpasses houtcome]
    exact ⟨rfl, h.kind text houtcome⟩

theorem quiet_of_silent (h : ∀ b ∈ t.subscribers, b.Silent) : s.Quiet t where
  general := Subscriber.askAll_of_forall (fun b hb memory ↦ (h b hb).onEvent _ _ memory) _
  kind _ _ := Subscriber.askAll_of_forall (fun b hb memory ↦ (h b hb).onKind _ _ _ memory) _

/-! ## Sequences of events -/

/-- Handles events one after the other. -/
def handleTurns (s : Session) : List (Turn σ) → Session
  | [] => s
  | t :: turns => (s.handleTurn t).session.handleTurns turns

/-- No subscriber interferes with any of some events. -/
def AllQuiet (s : Session) : List (Turn σ) → Prop
  | [] => True
  | t :: turns => s.Quiet t ∧ (s.handleTurn t).session.AllQuiet turns

theorem allQuiet_of_silent (h : ∀ t ∈ turns, ∀ b ∈ t.subscribers, b.Silent) : s.AllQuiet turns := by
  induction turns generalizing s with
  | nil => trivial
  | cons t turns ih =>
    obtain ⟨ht, hturns⟩ := List.forall_mem_cons.1 h
    exact ⟨quiet_of_silent ht, ih hturns⟩

/-- What the events of one part say, in their order. -/
def said (p : SessionPart) (turns : List (Turn σ)) : List EventKind :=
  (turns.map fun t ↦ t.event.kind).filter fun k ↦ k.part? = some p

/-- What the handling of the events of one part leads to, in their order. -/
def outcomes (p : SessionPart) (s : Session) : List (Turn σ) → List (Except Failure Mutation)
  | [] => []
  | t :: turns =>
    let later := (s.handleTurn t).session.outcomes p turns
    if t.event.kind.part? = some p then (s.handleTurn t).outcome :: later else later

/-- Events that are only applied, by what they say. -/
def applyEach (s : Session) : List EventKind → Session
  | [] => s
  | k :: ks => (s.apply k).session.applyEach ks

/-- What it leads to if events are only applied. -/
def applyOutcomes (s : Session) : List EventKind → List (Except Failure Mutation)
  | [] => []
  | k :: ks =>
    ((s.apply k).outcome.map fun _ ↦ .nothing) :: (s.apply k).session.applyOutcomes ks

theorem said_cons (p : SessionPart) (t : Turn σ) (turns : List (Turn σ)) :
    said p (t :: turns) =
      if t.event.kind.part? = some p then t.event.kind :: said p turns else said p turns := by
  rw [said, List.map_cons, List.filter_cons]
  simp only [decide_eq_true_eq]
  rfl

/-- A part is what its own events make of it, whatever comes between them. -/
theorem part_handleTurns (hs : s.part p = s'.part p) (h : s.AllQuiet turns) :
    (s.handleTurns turns).part p = (s'.applyEach (said p turns)).part p ∧
      s.outcomes p turns = s'.applyOutcomes (said p turns) := by
  induction turns generalizing s s' with
  | nil => exact ⟨hs, rfl⟩
  | cons t turns ih =>
    obtain ⟨hquiet, hlater⟩ := h
    obtain ⟨hsession, houtcome⟩ := handleTurn_of_quiet hquiet
    rw [handleTurns, outcomes, said_cons]
    by_cases hpart : t.event.kind.part? = some p
    · obtain ⟨hnext, hsame⟩ := apply_eq_of_part_eq hs hpart
      rw [← hsession] at hnext
      have hrest := ih hnext hlater
      rw [if_pos hpart, if_pos hpart, applyEach, applyOutcomes, hrest.1, hrest.2, houtcome, hsame]
      exact ⟨rfl, rfl⟩
    · have hkept : (s.handleTurn t).session.part p = s'.part p := by
        rw [hsession, part_apply_of_ne hpart, hs]
      have hrest := ih hkept hlater
      rw [if_neg hpart, if_neg hpart]
      exact hrest

theorem input_handleTurns (h : s.AllQuiet turns) : (s.handleTurns turns).input = s.input := by
  induction turns generalizing s with
  | nil => rfl
  | cons t turns ih =>
    obtain ⟨hquiet, hlater⟩ := h
    rw [handleTurns, ih hlater, (handleTurn_of_quiet hquiet).1, apply_input]

/-- **Parts are independent.** Let two sequences of events be handled from the same session, while
no subscriber asks for anything or fails; the subscribers may be others for each event. What comes
of the state document with its history, and which of its events fail, is decided by the events of
the state document; and so it is with the conversation and with the result. Sequences that agree on
all three parts lead to the same session. -/
theorem parts_handleTurns (s : Session) (turns : List (Turn σ)) (turns' : List (Turn τ))
    (h : s.AllQuiet turns) (h' : s.AllQuiet turns') :
    let left := s.handleTurns turns
    let right := s.handleTurns turns'
    (said .document turns = said .document turns' →
      left.store = right.store ∧ left.state = right.state ∧
        s.outcomes .document turns = s.outcomes .document turns') ∧
    (said .conversation turns = said .conversation turns' →
      left.messages = right.messages ∧ left.textBuffers = right.textBuffers ∧
        left.argumentBuffers = right.argumentBuffers ∧ left.callParents = right.callParents ∧
        left.openThinking = right.openThinking ∧
        s.outcomes .conversation turns = s.outcomes .conversation turns') ∧
    (said .result turns = said .result turns' → left.result = right.result) ∧
    ((∀ p, said p turns = said p turns') → left = right) := by
  intro left right
  have hpart (p : SessionPart) (hsaid : said p turns = said p turns') :
      left.part p = right.part p ∧ s.outcomes p turns = s.outcomes p turns' := by
    obtain ⟨hleft, hfirst⟩ := part_handleTurns (p := p) (rfl : s.part p = s.part p) h
    obtain ⟨hright, hsecond⟩ := part_handleTurns (p := p) (rfl : s.part p = s.part p) h'
    rw [← hsaid] at hright hsecond
    exact ⟨hleft.trans hright.symm, hfirst.trans hsecond.symm⟩
  refine ⟨fun hsaid ↦ ?_, fun hsaid ↦ ?_, fun hsaid ↦ ?_, fun hsaid ↦ ?_⟩
  · obtain ⟨hstore, houtcomes⟩ := hpart .document hsaid
    have hstore : left.store = right.store := PartValue.document.inj hstore
    exact ⟨hstore, congrArg StateStore.state hstore, houtcomes⟩
  · obtain ⟨hconversation, houtcomes⟩ := hpart .conversation hsaid
    have hsame : left.conversation = right.conversation :=
      PartValue.conversation.inj hconversation
    exact ⟨congrArg Conversation.messages hsame, congrArg Conversation.textBuffers hsame,
      congrArg Conversation.argumentBuffers hsame, congrArg Conversation.callParents hsame,
      congrArg Conversation.openThinking hsame, houtcomes⟩
  · exact PartValue.result.inj (hpart .result hsaid).1
  · refine eq_of_part_eq (funext fun p ↦ (hpart p (hsaid p)).1) ?_
    exact (input_handleTurns h).trans (input_handleTurns h').symm

/-- A call is begun, for which an identifier is drawn, and begun again, which fails; and a patch
fails before a snapshot. In another order, and with a subscriber that counts what it is told, this
comes to the same. -/
theorem parts_handleTurns_reordered :
    let handled (kind : EventKind) : Turn Unit := ⟨[], { kind, timestamp := 0 }, ()⟩
    let counted (kind : EventKind) : Turn Nat :=
      ⟨[{ notify := fun _ n ↦ n + 1 }], { kind, timestamp := 1 }, 0⟩
    let start : EventKind := .toolCallStart "t" "f" none
    let text : EventKind := .textMessageChunk "" none "x"
    let patch : EventKind := .stateDelta (.arr [.obj [("op", .str "remove"), ("path", .str "/b")]])
    let snapshot : EventKind := .stateSnapshot (.obj [("b", .null)])
    let finish : EventKind := .runFinished "h" "r" (.bool true)
    let s : Session := { messages := [{ id := "u", role := .user }] }
    let turns := [start, patch, text, finish, start, snapshot].map handled
    let turns' := [patch, snapshot, finish, start, text, start].map counted
    s.AllQuiet turns ∧ s.AllQuiet turns' ∧ s.handleTurns turns = s.handleTurns turns' ∧
      s.outcomes .document turns = s.outcomes .document turns' ∧
      (s.outcomes .document turns).map Except.isOk = [false, true] ∧
      s.outcomes .conversation turns = s.outcomes .conversation turns' ∧
      (s.outcomes .conversation turns).map Except.isOk = [true, true, false] := by
  intro handled counted start text patch snapshot finish s turns turns'
  have hsilent : ({ notify := fun _ n ↦ n + 1 } : Subscriber Nat).Silent :=
    ⟨fun _ _ _ ↦ rfl, fun _ _ _ _ ↦ rfl⟩
  have hturns : s.AllQuiet turns := by
    refine allQuiet_of_silent (List.forall_mem_map.2 fun k _ ↦ ?_)
    exact List.forall_mem_nil _
  have hturns' : s.AllQuiet turns' := by
    refine allQuiet_of_silent (List.forall_mem_map.2 fun k _ ↦ ?_)
    exact List.forall_mem_singleton.2 hsilent
  obtain ⟨hdocument, hconversation, -, hall⟩ := parts_handleTurns s turns turns' hturns hturns'
  have hsame : ∀ p, said p turns = said p turns' := by
    intro p
    cases p with
    | conversation => decide
    | document => decide
    | result => decide
  refine ⟨hturns, hturns', hall hsame, (hdocument (hsame .document)).2.2, by decide, ?_, by decide⟩
  exact (hconversation (hsame .conversation)).2.2.2.2.2

end Session

end AgentSession
