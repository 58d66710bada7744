import AgentSession.Proofs.Session.Effects
import AgentSession.Proofs.Session.OpenStreams
import AgentSession.Proofs.Session.Operation
/-!
# Buffers

In a run, the buffers of a session hold what its history of events says: a text message or a tool
call has a buffer if it is open, and the buffer holds what has been gathered of it. This is so for
any order of events, and whatever is done to the messages and the state document in between.

## Thinking messages

The buffers of text messages are shared with thinking messages, whose identifiers are drawn. For
these the history tells nothing but whether one is open, so two tables are described at once
(`Session.HoldsTexts`): outside of the identifiers drawn for thinking, the buffers are those of the
open text messages; among them there is a buffer for the open thinking message only.

## The argument

`Dict.Gathers` says what one table holds, and its lemmas follow one start, piece or end. An event
that is not about a table leaves it alone (`Session.sameTexts_apply`, `Session.sameCalls_apply`). So
one event keeps each table in step with the history, and so does a run.
-/

namespace AgentSession

variable {σ : Type}

/-- It opens, continues or closes the buffer of a text message or a thinking message. -/
def EventKind.isAboutTexts : EventKind → Bool
  | .textMessageStart _ _ | .textMessageContent _ _ | .textMessageEnd _
  | .thinkingTextMessageStart | .thinkingTextMessageContent _ | .thinkingTextMessageEnd => true
  | _ => false

/-- It opens, continues or closes the buffer of a tool call. -/
def EventKind.isAboutCalls : EventKind → Bool
  | .toolCallStart _ _ _ | .toolCallArgs _ _ | .toolCallEnd _ => true
  | _ => false

namespace Session

variable {s s' : Session} {h : History} {k : EventKind} {ids : List String} {text : String}

/-! ## What leaves buffers alone -/

/-- The buffers of text messages and thinking messages are the same. -/
structure SameTexts (s s' : Session) : Prop where
  textBuffers : s'.textBuffers = s.textBuffers
  openThinking : s'.openThinking = s.openThinking

/-- The buffers of tool calls are the same. -/
structure SameCalls (s s' : Session) : Prop where
  argumentBuffers : s'.argumentBuffers = s.argumentBuffers
  callParents : s'.callParents = s.callParents

structure SameBuffers (s s' : Session) : Prop extends SameTexts s s', SameCalls s s'

theorem SameBuffers.refl (s : Session) : SameBuffers s s := ⟨⟨.refl _, .refl _⟩, ⟨.refl _, .refl _⟩⟩

theorem SameBuffers.withMessages (h : SameBuffers s s') (messages : List Message) :
    SameBuffers s { s' with messages } :=
  ⟨⟨h.textBuffers, h.openThinking⟩, ⟨h.argumentBuffers, h.callParents⟩⟩

theorem sameBuffers_resolveParent (s : Session) (requested : Option String) :
    SameBuffers s (s.resolveParent requested).2.1 := by
  rcases s.resolveParent_cases requested with ⟨id, -, heq⟩ | ⟨id, ids, heq, -⟩
  · rw [heq]
    exact .refl s
  · rw [heq]
    exact ⟨⟨rfl, rfl⟩, ⟨rfl, rfl⟩⟩

theorem sameBuffers_openToolCall (s : Session) (callId name : String) (requested : Option String) :
    SameBuffers s (s.openToolCall callId name requested).session := by
  have hsame := s.sameBuffers_resolveParent requested
  obtain ⟨parent, -, ⟨-, heq⟩ | ⟨-, messages, -, heq⟩⟩ :=
    s.openToolCall_cases callId name requested
  · rw [heq]
    exact hsame
  · rw [heq]
    exact hsame.withMessages _

theorem sameBuffers_chunkCall (s : Session) (callId : String) (name parent : Option String)
    (delta : String) : SameBuffers s (s.chunkCall callId name parent delta).session := by
  cases hfound : s.appendArguments? callId delta with
  | some messages =>
    rw [chunkCall_of_some hfound]
    exact ⟨⟨rfl, rfl⟩, ⟨rfl, rfl⟩⟩
  | none =>
    have hsame := s.sameBuffers_openToolCall callId (name.getD "") parent
    cases hopen : (s.openToolCall callId (name.getD "") parent).outcome with
    | error failure =>
      rw [chunkCall_of_error hfound hopen]
      exact hsame
    | ok parentId =>
      rw [chunkCall_of_ok hfound hopen]
      exact hsame.withMessages _

theorem sameBuffers_chunkText (s : Session) (id : String) (role : Option Role) (delta : String) :
    SameBuffers s (s.chunkText id role delta).session := by
  have hsame : SameBuffers s (s.chunkTarget id).2 := by
    obtain ⟨ids, heq⟩ := s.chunkTarget_session id
    rw [heq]
    exact ⟨⟨rfl, rfl⟩, ⟨rfl, rfl⟩⟩
  rcases s.chunkText_cases id role delta with ⟨messages, -, heq⟩ | ⟨-, heq⟩
  · rw [heq]
    exact hsame.withMessages _
  · rw [heq]
    exact hsame.withMessages _

theorem sameBuffers_apply (htexts : k.isAboutTexts = false) (hcalls : k.isAboutCalls = false) :
    SameBuffers s (s.apply k).session := by
  cases k with
  | textMessageChunk id role delta => exact s.sameBuffers_chunkText id role delta
  | toolCallChunk callId name parent delta => exact s.sameBuffers_chunkCall callId name parent delta
  | toolCallResult id callId result =>
    change SameBuffers s (s.resultOfCall id callId result).session
    rcases s.resultOfCall_cases id callId result with ⟨id, -, heq⟩ | heq
    · rw [heq]
      exact ⟨⟨rfl, rfl⟩, ⟨rfl, rfl⟩⟩
    · rw [heq]
      exact ⟨⟨rfl, rfl⟩, ⟨rfl, rfl⟩⟩
  | stateDelta delta =>
    change SameBuffers s (s.patchState delta).session
    unfold patchState
    cases s.store.patch delta with
    | error failure => exact .refl s
    | ok store => exact ⟨⟨rfl, rfl⟩, ⟨rfl, rfl⟩⟩
  | runFinished threadId runId result =>
    change SameBuffers s (if result.isNull then s else { s with result := some result })
    split
    · exact .refl s
    · exact ⟨⟨rfl, rfl⟩, ⟨rfl, rfl⟩⟩
  | _ =>
    first
    | exact ⟨⟨rfl, rfl⟩, ⟨rfl, rfl⟩⟩
    | exact absurd htexts.symm Bool.false_ne_true
    | exact absurd hcalls.symm Bool.false_ne_true

theorem sameTexts_apply (hk : k.isAboutTexts = false) : SameTexts s (s.apply k).session := by
  cases hcalls : k.isAboutCalls with
  | false => exact (sameBuffers_apply hk hcalls).toSameTexts
  | true =>
    cases k with
    | toolCallStart callId name parent =>
      -- a start writes the table of calls, but only after the call was added
      have hsame := s.sameBuffers_openToolCall callId name parent
      change SameTexts s (s.startCall callId name parent).session
      cases hopen : (s.openToolCall callId name parent).outcome with
      | error failure =>
        rw [startCall_of_error hopen]
        exact hsame.toSameTexts
      | ok parentId =>
        rw [startCall_of_ok hopen]
        exact ⟨hsame.textBuffers, hsame.openThinking⟩
    | toolCallArgs callId delta => exact ⟨rfl, rfl⟩
    | toolCallEnd callId => exact ⟨rfl, rfl⟩
    | _ => cases hcalls

theorem sameCalls_apply (hk : k.isAboutCalls = false) : SameCalls s (s.apply k).session := by
  cases htexts : k.isAboutTexts with
  | false => exact (sameBuffers_apply htexts hk).toSameCalls
  | true =>
    cases k with
    | textMessageStart id role =>
      change SameCalls s (s.startText id).session
      rw [(s.startText_eq id).2]
      exact ⟨rfl, rfl⟩
    | textMessageContent id delta => exact ⟨rfl, rfl⟩
    | textMessageEnd id => exact ⟨rfl, rfl⟩
    | thinkingTextMessageStart => exact ⟨rfl, rfl⟩
    | thinkingTextMessageContent delta =>
      change SameCalls s (s.continueThinking delta).session
      by_cases hnil : s.messages = []
      · rw [continueThinking_of_nil hnil]
        exact ⟨rfl, rfl⟩
      · cases hthinking : s.openThinking with
        | none =>
          rw [continueThinking_of_none hnil hthinking]
          exact ⟨rfl, rfl⟩
        | some id =>
          rw [continueThinking_of_some hnil hthinking]
          exact ⟨rfl, rfl⟩
    | thinkingTextMessageEnd =>
      change SameCalls s s.endThinking.session
      cases hthinking : s.openThinking with
      | none =>
        rw [endThinking_of_none hthinking]
        exact ⟨rfl, rfl⟩
      | some id =>
        rw [endThinking_of_some hthinking]
        exact ⟨rfl, rfl⟩
    | _ => cases htexts

/-- An event that fails leaves the buffers alone. -/
theorem sameBuffers_of_error {failure : Failure} (hk : (s.apply k).outcome = .error failure) :
    SameBuffers s (s.apply k).session := by
  rcases apply_error_cases hk with ⟨callId, name, requested, -, -, heq⟩ | ⟨delta, -, heq⟩
  · rw [heq]
    exact s.sameBuffers_openToolCall callId name requested
  · rw [heq]
    exact .refl s

/-! ## Buffers of tool calls -/

/-- The buffers of tool calls hold what a history says, and the calls that are open are those that
belong to a message. -/
structure HoldsCalls (h : History) (s : Session) : Prop where
  gathers : s.argumentBuffers.Gathers h .call []
  sorted : s.callParents.Sorted
  has_parents : ∀ callId, s.callParents.has callId = s.argumentBuffers.has callId

theorem call_injective : StreamKey.call.Injective := fun _ _ ↦ StreamKey.call.inj

theorem HoldsCalls.congr (hs : HoldsCalls h s) (hsame : SameCalls s s') : HoldsCalls h s' where
  gathers := hsame.argumentBuffers ▸ hs.gathers
  sorted := hsame.callParents ▸ hs.sorted
  has_parents callId := by
    rw [hsame.callParents, hsame.argumentBuffers, hs.has_parents]

/-- An event that is not about tool calls keeps their buffers in step. -/
theorem HoldsCalls.other (hs : HoldsCalls h s) (hk : ∀ callId, k.key? ≠ some (.call callId)) :
    HoldsCalls (h ++ [k]) s :=
  ⟨hs.gathers.other hk, hs.sorted, hs.has_parents⟩

theorem HoldsCalls.startCall (hs : HoldsCalls h s) {callId name : String} {parent : Option String}
    (hk : (s.startCall callId name parent).outcome = .ok text) :
    HoldsCalls (h ++ [.toolCallStart callId name parent])
      (s.startCall callId name parent).session := by
  have hsame := s.sameBuffers_openToolCall callId name parent
  cases hopen : (s.openToolCall callId name parent).outcome with
  | error failure =>
    rw [startCall_of_error hopen, hopen] at hk
    cases hk
  | ok parentId =>
    rw [startCall_of_ok hopen, hsame.argumentBuffers, hsame.callParents]
    constructor
    · exact hs.gathers.start call_injective rfl rfl
    · exact hs.sorted.insert callId parentId
    · intro other
      rw [Dict.has_insert, Dict.has_insert, hs.has_parents]

theorem HoldsCalls.apply (hs : HoldsCalls h s) (hk : (s.apply k).outcome = .ok text) :
    HoldsCalls (h ++ [k]) (s.apply k).session := by
  cases k with
  | toolCallStart callId name parent => exact hs.startCall hk
  | toolCallArgs callId delta =>
    constructor
    · exact hs.gathers.delta call_injective rfl rfl
    · exact hs.sorted
    · intro other
      exact (hs.has_parents other).trans (Dict.has_appendText _ callId delta other).symm
  | toolCallEnd callId =>
    constructor
    · exact hs.gathers.close call_injective rfl rfl
    · exact hs.sorted.erase callId
    · intro other
      change (s.callParents.erase callId).has other = (s.argumentBuffers.erase callId).has other
      rw [hs.sorted.has_erase, hs.gathers.sorted.has_erase, hs.has_parents]
  | _ => exact (hs.congr (sameCalls_apply rfl)).other nofun

/-! ## Buffers of text messages and thinking messages -/

/-- Outside of some identifiers, which were drawn for thinking messages, the text buffers hold what
a history says. Among these identifiers, there is a buffer for the open thinking message only. -/
structure HoldsTexts (h : History) (ids : List String) (s : Session) : Prop where
  gathers : s.textBuffers.Gathers h .text ids
  has_iff : ∀ id ∈ ids, s.textBuffers.has id = true ↔ s.openThinking = some id
  mem_of_open : ∀ id, s.openThinking = some id → id ∈ ids
  isSome_iff : s.openThinking.isSome = true ↔ h.ThinkingOpen

theorem text_injective : StreamKey.text.Injective := fun _ _ ↦ StreamKey.text.inj

/-- The identifier that an event draws for a thinking message. -/
def thinkingId? (s : Session) : EventKind → Option String
  | .thinkingTextMessageStart => some (s.drawId .thinking).1
  | _ => none

/-- The text buffers without that of the open thinking message. -/
def wireBuffers (s : Session) : Dict String :=
  match s.openThinking with
  | some id => s.textBuffers.erase id
  | none => s.textBuffers

theorem startThinking_session (s : Session) :
    s.startThinking.session.textBuffers = s.wireBuffers.insert (s.drawId .thinking).1 "" ∧
      s.startThinking.session.openThinking = some (s.drawId .thinking).1 := ⟨rfl, rfl⟩

theorem endThinking_session (s : Session) :
    s.endThinking.session.textBuffers = s.wireBuffers ∧
      s.endThinking.session.openThinking = none := by
  cases hthinking : s.openThinking with
  | none =>
    rw [endThinking_of_none hthinking, wireBuffers, hthinking]
    exact ⟨rfl, rfl⟩
  | some id =>
    rw [endThinking_of_some hthinking, wireBuffers, hthinking]
    exact ⟨rfl, rfl⟩

theorem HoldsTexts.change (hs : HoldsTexts h ids s) (hk : k.isThinkingBound = false)
    (hgathers : s'.textBuffers.Gathers (h ++ [k]) .text ids)
    (hhas : ∀ id ∈ ids, s'.textBuffers.has id = s.textBuffers.has id)
    (hopen : s'.openThinking = s.openThinking) : HoldsTexts (h ++ [k]) ids s' where
  gathers := hgathers
  has_iff id hid := by rw [hhas id hid, hopen, hs.has_iff id hid]
  mem_of_open id hid := hs.mem_of_open id (hopen ▸ hid)
  isSome_iff := by rw [hopen, hs.isSome_iff, History.thinkingOpen_concat hk]

theorem HoldsTexts.congr (hs : HoldsTexts h ids s) (hsame : SameTexts s s') :
    HoldsTexts h ids s' where
  gathers := hsame.textBuffers ▸ hs.gathers
  has_iff id hid := by rw [hsame.textBuffers, hsame.openThinking, hs.has_iff id hid]
  mem_of_open id hid := hs.mem_of_open id (hsame.openThinking ▸ hid)
  isSome_iff := by rw [hsame.openThinking, hs.isSome_iff]

/-- An event that is not about text messages or thinking messages keeps their buffers in step. -/
theorem HoldsTexts.other (hs : HoldsTexts h ids s) (hk : ∀ id, k.key? ≠ some (.text id))
    (hthinking : k.isThinkingBound = false) : HoldsTexts (h ++ [k]) ids s :=
  hs.change hthinking (hs.gathers.other hk) (fun _ _ ↦ rfl) rfl

/-- Without the open thinking message, nothing is left under the identifiers drawn for thinking. -/
theorem HoldsTexts.wireBuffers (hs : HoldsTexts h ids s) :
    s.wireBuffers.Gathers h .text ids ∧ ∀ id ∈ ids, s.wireBuffers.has id = false := by
  unfold Session.wireBuffers
  cases hthinking : s.openThinking with
  | none =>
    refine ⟨hs.gathers, fun id hid ↦ ?_⟩
    rw [← Bool.not_eq_true, hs.has_iff id hid, hthinking]
    exact (Option.some_ne_none id).symm
  | some previous =>
    constructor
    · refine hs.gathers.mono (hs.gathers.sorted.erase previous) (List.Subset.refl ids)
        fun id hid ↦ ?_
      refine Dict.get?_erase_of_ne _ fun heq ↦ hid ?_
      exact heq ▸ hs.mem_of_open previous hthinking
    · intro id hid
      rw [hs.gathers.sorted.has_erase]
      by_cases heq : previous = id
      · rw [decide_eq_true heq, Bool.not_true, Bool.false_and]
      · have hclosed : s.textBuffers.has id = false := by
          rw [← Bool.not_eq_true, hs.has_iff id hid, hthinking]
          exact fun hsome ↦ heq (Option.some.inj hsome)
        rw [hclosed, Bool.and_false]

theorem HoldsTexts.startThinking (hs : HoldsTexts h ids s) :
    HoldsTexts (h ++ [.thinkingTextMessageStart]) (ids ++ [(s.drawId .thinking).1])
      s.startThinking.session := by
  obtain ⟨hgathers, hclosed⟩ := hs.wireBuffers
  obtain ⟨htexts, hopen⟩ := s.startThinking_session
  -- the new identifier may have been drawn before, so nothing is assumed about it
  generalize (s.drawId .thinking).1 = new at htexts hopen ⊢
  have hnew : new ∈ ids ++ [new] := List.mem_append_right ids (List.mem_singleton_self new)
  constructor
  · rw [htexts]
    have hother : s.wireBuffers.Gathers (h ++ [.thinkingTextMessageStart]) .text ids :=
      hgathers.other fun id ↦ (Option.some_ne_none _).symm
    refine hother.mono (hother.sorted.insert new "") (List.subset_append_left ids [new])
      fun id hid ↦ ?_
    have hne : new ≠ id := fun heq ↦ hid (heq ▸ hnew)
    exact Dict.get?_insert_of_ne _ hne ""
  · intro id hid
    rw [htexts, hopen, Dict.has_insert, Option.some.injEq]
    rcases List.mem_append.1 hid with hid | hid
    · rw [hclosed id hid, Bool.or_false, decide_eq_true_eq]
    · rw [List.mem_singleton.1 hid, decide_eq_true rfl, Bool.true_or]
      exact iff_of_true rfl rfl
  · intro id hid
    rw [hopen] at hid
    exact Option.some.inj hid ▸ hnew
  · rw [hopen]
    exact iff_of_true rfl (History.thinkingOpen_concat_start h)

theorem HoldsTexts.continueThinking (hs : HoldsTexts h ids s) (delta : String) :
    HoldsTexts (h ++ [.thinkingTextMessageContent delta]) ids
      (s.continueThinking delta).session := by
  have hother : s.textBuffers.Gathers (h ++ [.thinkingTextMessageContent delta]) .text ids :=
    hs.gathers.other fun id ↦ (Option.some_ne_none _).symm
  by_cases hnil : s.messages = []
  · rw [continueThinking_of_nil hnil]
    exact hs.change rfl hother (fun _ _ ↦ rfl) rfl
  · cases hthinking : s.openThinking with
    | none =>
      rw [continueThinking_of_none hnil hthinking]
      exact hs.change rfl hother (fun _ _ ↦ rfl) rfl
    | some current =>
      rw [continueThinking_of_some hnil hthinking]
      refine hs.change rfl ?_ (fun id _ ↦ Dict.has_appendText _ current delta id) rfl
      -- the text goes to the open thinking message, which the history does not tell about
      refine hother.mono (hother.sorted.appendText current delta) (List.Subset.refl ids)
        fun id hid ↦ ?_
      rw [Dict.get?_appendText, if_neg fun heq ↦ hid ?_]
      exact heq ▸ hs.mem_of_open current hthinking

theorem HoldsTexts.endThinking (hs : HoldsTexts h ids s) :
    HoldsTexts (h ++ [.thinkingTextMessageEnd]) ids s.endThinking.session := by
  obtain ⟨hgathers, hclosed⟩ := hs.wireBuffers
  obtain ⟨htexts, hopen⟩ := s.endThinking_session
  constructor
  · rw [htexts]
    exact hgathers.other fun id ↦ (Option.some_ne_none _).symm
  · intro id hid
    rw [htexts, hopen, hclosed id hid]
    exact iff_of_false Bool.false_ne_true (Option.some_ne_none id).symm
  · intro id hid
    rw [hopen] at hid
    cases hid
  · rw [hopen]
    exact iff_of_false Bool.false_ne_true (History.not_thinkingOpen_concat_end h)

/-- An event of a text message changes the buffer of that message only. -/
theorem HoldsTexts.ofMessage (hs : HoldsTexts h ids s) {id : String} (hid : id ∉ ids)
    (hk : k.isThinkingBound = false)
    (hgathers : s'.textBuffers.Gathers (h ++ [k]) .text ids)
    (hother : ∀ other, id ≠ other → s'.textBuffers.get? other = s.textBuffers.get? other)
    (hopen : s'.openThinking = s.openThinking) : HoldsTexts (h ++ [k]) ids s' := by
  refine hs.change hk hgathers (fun other hmem ↦ ?_) hopen
  rw [Dict.has, hother other fun heq ↦ hid (heq ▸ hmem), Dict.has]

theorem HoldsTexts.apply (hs : HoldsTexts h ids s)
    (hids : ∀ id ∈ ids, k.key? ≠ some (.text id)) :
    HoldsTexts (h ++ [k]) (ids ++ (s.thinkingId? k).toList) (s.apply k).session := by
  cases k with
  | thinkingTextMessageStart => exact hs.startThinking
  | thinkingTextMessageContent delta =>
    exact (List.append_nil ids).symm ▸ hs.continueThinking delta
  | thinkingTextMessageEnd => exact (List.append_nil ids).symm ▸ hs.endThinking
  | textMessageStart id role =>
    change HoldsTexts _ (ids ++ []) (s.startText id).session
    rw [List.append_nil, (s.startText_eq id).2]
    exact hs.ofMessage (fun hid ↦ hids id hid rfl) rfl (hs.gathers.start text_injective rfl rfl)
      (fun other hne ↦ Dict.get?_insert_of_ne _ hne "") rfl
  | textMessageContent id delta =>
    change HoldsTexts _ (ids ++ []) _
    rw [List.append_nil]
    refine hs.ofMessage (fun hid ↦ hids id hid rfl) rfl (hs.gathers.delta text_injective rfl rfl)
      (fun other hne ↦ ?_) rfl
    exact (Dict.get?_appendText _ id delta other).trans (if_neg hne)
  | textMessageEnd id =>
    change HoldsTexts _ (ids ++ []) _
    rw [List.append_nil]
    exact hs.ofMessage (fun hid ↦ hids id hid rfl) rfl (hs.gathers.close text_injective rfl rfl)
      (fun other hne ↦ Dict.get?_erase_of_ne _ hne) rfl
  | _ =>
    change HoldsTexts _ (ids ++ []) _
    rw [List.append_nil]
    exact (hs.congr (sameTexts_apply rfl)).other nofun rfl

end Session

end AgentSession
