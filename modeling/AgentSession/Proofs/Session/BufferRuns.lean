import AgentSession.Proofs.Session.Buffers
/-!
# Buffers in a run

A run is a list of operations on the session that it started with. Its history is what the events
said that were applied without failure (`Session.history`), so a tool call that was refused is not
part of it. Everything else that may happen, namely a failing event, a mutation or a list of
messages from outside, leaves the buffers alone. So the buffers keep up with the history
(`Session.KeepsUp.performAll`), and what subscribers are shown can be told from it.

It is assumed that no text message has an identifier that was drawn for a thinking message, since
the two share a table. Thinking messages may then be started, continued and ended in any order too.
-/

namespace AgentSession

variable {σ : Type}

namespace Session

variable {s : Session} {h : History} {k : EventKind} {ids : List String}

/-- What the events said that some operations applied without failure, oldest first. -/
def history (s : Session) (ops : List (Operation σ)) : History := (s.applied ops).map Prod.snd

/-- The identifiers that some operations drew for thinking messages. -/
def thinkingIds (s : Session) (ops : List (Operation σ)) : List String :=
  (s.applied ops).filterMap fun p ↦ p.1.thinkingId? p.2

theorem history_cons (s : Session) (op : Operation σ) (ops : List (Operation σ)) :
    s.history (op :: ops) = (s.applied? op).toList ++ (s.perform op).history ops := by
  rw [history, applied, List.map_append, history]
  cases s.applied? op with
  | none => rfl
  | some k => rfl

theorem thinkingIds_cons (s : Session) (op : Operation σ) (ops : List (Operation σ)) :
    s.thinkingIds (op :: ops) =
      ((s.applied? op).bind s.thinkingId?).toList ++ (s.perform op).thinkingIds ops := by
  rw [thinkingIds, applied, List.filterMap_append, thinkingIds]
  cases s.applied? op with
  | none => rfl
  | some k =>
    rw [Option.map_some, Option.toList_some, List.filterMap_cons, Option.bind_some]
    cases s.thinkingId? k with
    | none => rfl
    | some id => rfl

/-- An operation applies an event without failure, or leaves the buffers alone. -/
theorem perform_cases (s : Session) (op : Operation σ) :
    (∃ k text, s.applied? op = some k ∧ (s.apply k).outcome = .ok text ∧
        s.perform op = (s.apply k).session) ∨
      (s.applied? op = none ∧ SameBuffers s (s.perform op)) := by
  cases op with
  | handle subscribers e memory =>
    have hsession := s.handle_session subscribers e memory
    cases hpasses : s.passes subscribers e memory with
    | false =>
      refine .inr ⟨by rw [applied?, hpasses]; rfl, ?_⟩
      rw [perform, hsession, hpasses, if_neg Bool.false_ne_true]
      exact .refl s
    | true =>
      rw [hpasses, if_pos rfl] at hsession
      cases houtcome : (s.apply e.kind).outcome with
      | error failure =>
        refine .inr ⟨by rw [applied?, hpasses, houtcome]; rfl, ?_⟩
        rw [perform, hsession]
        exact sameBuffers_of_error houtcome
      | ok text =>
        exact .inl ⟨e.kind, text, by rw [applied?, hpasses, houtcome]; rfl, houtcome, hsession⟩
  | commit m =>
    refine .inr ⟨rfl, ?_⟩
    obtain ⟨messages, state, stop⟩ := m
    cases messages <;> cases state <;> exact ⟨⟨rfl, rfl⟩, ⟨rfl, rfl⟩⟩
  | addMessage m => exact .inr ⟨rfl, ⟨⟨rfl, rfl⟩, ⟨rfl, rfl⟩⟩⟩
  | setMessages messages => exact .inr ⟨rfl, ⟨⟨rfl, rfl⟩, ⟨rfl, rfl⟩⟩⟩
  | setStore store => exact .inr ⟨rfl, ⟨⟨rfl, rfl⟩, ⟨rfl, rfl⟩⟩⟩

/-- The buffers are what a history says, where some identifiers were drawn for thinking messages. -/
structure KeepsUp (h : History) (ids : List String) (s : Session) : Prop where
  texts : HoldsTexts h ids s
  calls : HoldsCalls h s

theorem keepsUp_start (s : Session) (input : RunInput) : KeepsUp [] [] (s.start input) where
  texts := ⟨⟨List.Pairwise.nil, fun _ _ ↦ rfl⟩, nofun, nofun, iff_of_false Bool.false_ne_true nofun⟩
  calls := ⟨⟨List.Pairwise.nil, fun _ _ ↦ rfl⟩, List.Pairwise.nil, fun _ ↦ rfl⟩

theorem KeepsUp.perform (hs : KeepsUp h ids s) (op : Operation σ)
    (hids : ∀ k, s.applied? op = some k → ∀ id ∈ ids, k.key? ≠ some (.text id)) :
    KeepsUp (h ++ (s.applied? op).toList) (ids ++ ((s.applied? op).bind s.thinkingId?).toList)
      (s.perform op) := by
  rcases s.perform_cases op with ⟨k, text, happlied, houtcome, hperform⟩ | ⟨hnone, hsame⟩
  · rw [happlied, hperform]
    exact ⟨hs.texts.apply (hids k happlied), hs.calls.apply houtcome⟩
  · rw [hnone, Option.toList_none, Option.bind_none, Option.toList_none, List.append_nil,
      List.append_nil]
    exact ⟨hs.texts.congr hsame.toSameTexts, hs.calls.congr hsame.toSameCalls⟩

theorem KeepsUp.performAll (hs : KeepsUp h ids s) (ops : List (Operation σ))
    (hids : ∀ id ∈ ids ++ s.thinkingIds ops, ∀ k ∈ s.history ops, k.key? ≠ some (.text id)) :
    KeepsUp (h ++ s.history ops) (ids ++ s.thinkingIds ops) (s.performAll ops) := by
  -- each operation moves its event from the rest of the run to the history before it
  induction ops generalizing h ids s with
  | nil =>
    have hhistory : s.history ([] : List (Operation σ)) = [] := rfl
    have hthinking : s.thinkingIds ([] : List (Operation σ)) = [] := rfl
    rw [hhistory, hthinking, List.append_nil, List.append_nil]
    exact hs
  | cons op ops ih =>
    rw [history_cons, thinkingIds_cons] at hids
    rw [history_cons, thinkingIds_cons, ← List.append_assoc, ← List.append_assoc]
    have hfirst : ∀ k, s.applied? op = some k → ∀ id ∈ ids, k.key? ≠ some (.text id) := by
      intro k hk id hid
      refine hids id (List.mem_append_left _ hid) k (List.mem_append_left _ ?_)
      rw [hk]
      exact List.mem_singleton_self k
    refine ih (hs.perform op hfirst) fun id hid k hk ↦ ?_
    rw [List.append_assoc] at hid
    exact hids id hid k (List.mem_append_right _ hk)

/-! ## What can be told from the history -/

theorem HoldsTexts.eq_nil_iff (hs : HoldsTexts h ids s)
    (hids : ∀ id ∈ ids, ∀ k ∈ h, k.key? ≠ some (.text id)) :
    s.textBuffers = [] ↔ (∀ id, h.isOpen (.text id) = false) ∧ ¬h.ThinkingOpen := by
  constructor
  · intro hnil
    constructor
    · intro id
      -- the history has no text message under an identifier drawn for thinking
      by_cases hid : id ∈ ids
      · exact History.isOpen_eq_false_of_forall_key?_ne (hids id hid)
      · rw [← History.gathered?_eq_none_iff, ← hs.gathers.get?_eq id hid, hnil, Dict.get?_nil]
    · intro hthinking
      obtain ⟨id, hid⟩ := Option.isSome_iff_exists.1 (hs.isSome_iff.2 hthinking)
      have hhas := (hs.has_iff id (hs.mem_of_open id hid)).2 hid
      rw [hnil] at hhas
      cases hhas
  · rintro ⟨htexts, hthinking⟩
    refine Dict.eq_nil_of_get?_eq_none fun id ↦ ?_
    by_cases hid : id ∈ ids
    · -- no thinking message is open, so none of the identifiers drawn for them has a buffer
      have hhas : ¬s.textBuffers.has id = true := by
        rw [hs.has_iff id hid]
        intro hopen
        refine hthinking (hs.isSome_iff.1 ?_)
        rw [hopen, Option.isSome_some]
      rwa [Dict.has, Option.not_isSome_iff_eq_none] at hhas
    · rw [hs.gathers.get?_eq id hid, History.gathered?_eq_none_iff]
      exact htexts id

theorem HoldsCalls.eq_nil_iff (hs : HoldsCalls h s) :
    s.argumentBuffers = [] ↔ ∀ callId, h.isOpen (.call callId) = false := by
  have hget (callId : String) :
      s.argumentBuffers.get? callId = none ↔ h.isOpen (.call callId) = false := by
    rw [hs.gathers.get?_eq callId List.not_mem_nil, History.gathered?_eq_none_iff]
  constructor
  · intro hnil callId
    rw [← hget, hnil, Dict.get?_nil]
  · intro hclosed
    exact Dict.eq_nil_of_get?_eq_none fun callId ↦ (hget callId).2 (hclosed callId)

theorem KeepsUp.hasOpenBuffers_iff (hs : KeepsUp h ids s)
    (hids : ∀ id ∈ ids, ∀ k ∈ h, k.key? ≠ some (.text id)) :
    s.hasOpenBuffers = false ↔ h.AllEnded := by
  have hnil : s.hasOpenBuffers = false ↔ s.textBuffers = [] ∧ s.argumentBuffers = [] := by
    rw [hasOpenBuffers, Bool.or_eq_false_iff, Bool.not_eq_false', Bool.not_eq_false',
      List.isEmpty_iff, List.isEmpty_iff]
  rw [hnil, hs.texts.eq_nil_iff hids, hs.calls.eq_nil_iff, History.AllEnded]
  constructor
  · rintro ⟨⟨htexts, hthinking⟩, hcalls⟩
    refine ⟨fun key ↦ ?_, hthinking⟩
    cases key with
    | text id => exact htexts id
    | call callId => exact hcalls callId
  · rintro ⟨hall, hthinking⟩
    exact ⟨⟨fun id ↦ hall (.text id), hthinking⟩, fun callId ↦ hall (.call callId)⟩

/-- What subscribers are to be shown is the text that comes with the event. -/
theorem KeepsUp.outcome_eq (hs : KeepsUp h ids s) {text : String} (hk : h.shown? k = some text)
    (hids : ∀ id ∈ ids, k.key? ≠ some (.text id)) : (s.apply k).outcome = .ok text := by
  cases k with
  | textMessageContent id delta =>
    obtain rfl := Option.some.inj hk
    exact congrArg _ (hs.texts.gathers.appendText_fst_eq (fun hid ↦ hids id hid rfl) rfl rfl)
  | textMessageEnd id =>
    obtain rfl := Option.some.inj hk
    exact congrArg _ (hs.texts.gathers.closeText_fst_eq fun hid ↦ hids id hid rfl)
  | toolCallArgs callId delta =>
    obtain rfl := Option.some.inj hk
    exact congrArg _ (hs.calls.gathers.appendText_fst_eq List.not_mem_nil rfl rfl)
  | toolCallEnd callId =>
    obtain rfl := Option.some.inj hk
    exact congrArg _ (hs.calls.gathers.closeText_fst_eq List.not_mem_nil)
  | _ => cases hk

/-- **Buffers in a run.** After any operations on a session that a run started with, the text
messages and tool calls that have a buffer are those that are open, and their buffers hold what has
been gathered of them; a tool call belongs to a message if it has a buffer; of the identifiers drawn
for thinking messages, only that of the open one has a buffer; no buffer is left if everything that
was started was ended. And with a piece or an end that comes next, subscribers are shown what has
been gathered of the stream. -/
theorem buffers_performAll (s₀ : Session) (input : RunInput) (ops : List (Operation σ))
    (hids : ∀ id ∈ (s₀.start input).thinkingIds ops, ∀ k ∈ (s₀.start input).history ops,
      k.key? ≠ some (.text id)) :
    let s := (s₀.start input).performAll ops
    let h := (s₀.start input).history ops
    let thinking := (s₀.start input).thinkingIds ops
    (∀ id, id ∉ thinking → s.textBuffers.get? id = h.gathered? (.text id)) ∧
      (∀ callId, s.argumentBuffers.get? callId = h.gathered? (.call callId)) ∧
      (∀ callId, s.callParents.has callId = s.argumentBuffers.has callId) ∧
      (∀ id ∈ thinking, s.textBuffers.has id = true ↔ s.openThinking = some id) ∧
      (∀ id, s.openThinking = some id → id ∈ thinking) ∧
      (s.openThinking.isSome = true ↔ h.ThinkingOpen) ∧
      (s.hasOpenBuffers = false ↔ h.AllEnded) ∧
      ∀ (subscribers : List (Subscriber σ)) (e : Event) (memory : σ) (text : String),
        s.passes subscribers e memory = true → h.shown? e.kind = some text →
        (∀ id ∈ thinking, e.kind.key? ≠ some (.text id)) →
        let answer := (s.apply e.kind).session.askKind subscribers e.kind text
          (s.memoryAfter subscribers e memory)
        s.handle subscribers e memory = ⟨(s.apply e.kind).session, answer.2, answer.1⟩ := by
  intro s h thinking
  have hs : KeepsUp h thinking s := (s₀.keepsUp_start input).performAll ops hids
  refine ⟨hs.texts.gathers.get?_eq, fun callId ↦ ?_, hs.calls.has_parents, hs.texts.has_iff,
    hs.texts.mem_of_open, hs.texts.isSome_iff, hs.hasOpenBuffers_iff hids, ?_⟩
  · exact hs.calls.gathers.get?_eq callId List.not_mem_nil
  · intro subscribers e memory text hpasses hshown hkey
    exact handle_of_apply_ok hpasses (hs.outcome_eq hshown hkey)

/-- Text comes before its message, a message is started twice, a tool call is started twice and
loses its message, and thinking is started twice. -/
theorem buffers_performAll_malformed :
    let input : RunInput := { threadId := "thread", runId := "run" }
    let handled (kind : EventKind) : Operation (List String) :=
      .handle [] { kind, timestamp := 0 } []
    let ops : List (Operation (List String)) :=
      [handled (.textMessageContent "m" "early"),
        handled (.textMessageStart "m" .assistant),
        handled (.textMessageContent "m" "first"),
        handled .thinkingTextMessageStart,
        handled (.toolCallStart "t" "f" (some "p")),
        handled (.toolCallStart "t" "g" (some "p")),
        handled (.toolCallArgs "t" "x"),
        .setMessages [],
        handled .thinkingTextMessageStart,
        handled (.textMessageStart "m" .assistant),
        handled (.textMessageContent "m" "second"),
        handled (.toolCallArgs "t" "y")]
    let recorder : Subscriber (List String) :=
      { onKind := fun _ text _ memory ↦ (.ok .nothing, memory ++ [text]) }
    let s₀ : Session := {}
    let s := (s₀.start input).performAll ops
    (∀ id ∈ (s₀.start input).thinkingIds ops, ∀ k ∈ (s₀.start input).history ops,
        k.key? ≠ some (.text id)) ∧
      s.textBuffers.get? "m" = some "second" ∧ s.argumentBuffers.get? "t" = some "xy" ∧
      s.callParents.has "t" = true ∧ s.hasOpenBuffers = true ∧
      (s.handle [recorder] { kind := .textMessageEnd "m", timestamp := 0 } []).memory =
        ["second"] := by
  intro input handled ops recorder s₀ s
  have hids : ∀ id ∈ (s₀.start input).thinkingIds ops, ∀ k ∈ (s₀.start input).history ops,
      k.key? ≠ some (.text id) := by decide
  obtain ⟨htext, hcall, hparents, -, -, -, hopen, hshown⟩ := buffers_performAll s₀ input ops hids
  have hm : s.textBuffers.get? "m" = some "second" := (htext "m" (by decide)).trans (by decide)
  have ht : s.argumentBuffers.get? "t" = some "xy" := (hcall "t").trans (by decide)
  refine ⟨hids, hm, ht, (hparents "t").trans ?_, ?_, ?_⟩
  · rw [Dict.has, ht, Option.isSome_some]
  · rw [← Bool.not_eq_false, hopen]
    intro hended
    exact absurd (hended.1 (.text "m")) (by decide)
  · rw [hshown [recorder] { kind := .textMessageEnd "m", timestamp := 0 } [] "second" rfl
      (by decide) (by decide)]
    rfl

end Session

end AgentSession
