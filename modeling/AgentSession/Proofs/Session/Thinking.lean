import AgentSession.Proofs.Session.BufferRuns
/-!
# The text of a thinking message

A thinking message has no identifier on the wire. Its start draws one, under which a buffer gathers
its pieces until its end, whatever else happens in between. So at the end subscribers are shown what
was said, in its order, with one exception: a piece that comes while the session has no message at
all does not reach the buffer either. A list without messages may have been brought by an event or a
mutation. `Session.thinkingSaid` is the text of all pieces in events that were applied, and
`Session.thinkingHeard` that of the pieces that reach the buffer; the two are the same exactly if no
text came to an empty session (`Session.thinkingHeard_eq_thinkingSaid_iff`).

Pieces of text messages reach their buffer whether or not their message exists.
-/

namespace AgentSession

variable {σ : Type}

/-- The piece of a thinking message that it brings. -/
def EventKind.thinkingPiece? : EventKind → Option String
  | .thinkingTextMessageContent delta => some delta
  | _ => none

namespace Session

/-- The piece of a thinking message that reaches the buffer, if it is open. -/
def thinkingPiece? (s : Session) (k : EventKind) : Option String :=
  if s.messages.isEmpty then none else k.thinkingPiece?

/-- All pieces of thinking messages in events, each with the session that it was applied to. -/
def thinkingSaid (applied : List (Session × EventKind)) : String :=
  String.join (applied.filterMap fun p ↦ p.2.thinkingPiece?)

/-- The pieces among them that reach the buffer. -/
def thinkingHeard (applied : List (Session × EventKind)) : String :=
  String.join (applied.filterMap fun p ↦ p.1.thinkingPiece? p.2)

variable {s s' : Session} {k : EventKind} {id text : String}
  {applied : List (Session × EventKind)}

/-! ## What is heard of what is said -/

theorem join_filterMap_cons {α : Type} (f : α → Option String) (a : α) (as : List α) :
    String.join ((a :: as).filterMap f) = (f a).getD "" ++ String.join (as.filterMap f) := by
  rw [List.filterMap_cons]
  cases f a with
  | none => exact String.empty_append.symm
  | some piece => exact String.join_cons

theorem thinkingSaid_cons (p : Session × EventKind) (applied : List (Session × EventKind)) :
    thinkingSaid (p :: applied) = p.2.thinkingPiece?.getD "" ++ thinkingSaid applied :=
  join_filterMap_cons _ p applied

theorem thinkingHeard_cons (p : Session × EventKind) (applied : List (Session × EventKind)) :
    thinkingHeard (p :: applied) = (p.1.thinkingPiece? p.2).getD "" ++ thinkingHeard applied :=
  join_filterMap_cons _ p applied

/-- A piece is heard as it is said, or it comes to a session without messages and is not heard. -/
theorem thinkingPiece?_cases (s : Session) (k : EventKind) :
    (s.thinkingPiece? k = k.thinkingPiece? ∧ (s.messages = [] → k.thinkingPiece?.getD "" = "")) ∨
      ∃ delta, s.messages = [] ∧ k = .thinkingTextMessageContent delta ∧
        s.thinkingPiece? k = none := by
  by_cases hnil : s.messages = []
  · have hnone : s.thinkingPiece? k = none := if_pos (by rw [hnil]; rfl)
    cases k with
    | thinkingTextMessageContent delta => exact .inr ⟨delta, hnil, rfl, hnone⟩
    | _ => exact .inl ⟨hnone, fun _ ↦ rfl⟩
  · have hsome : s.thinkingPiece? k = k.thinkingPiece? :=
      if_neg fun hempty ↦ hnil (List.isEmpty_iff.1 hempty)
    exact .inl ⟨hsome, fun h ↦ absurd h hnil⟩

theorem length_thinkingHeard_le (applied : List (Session × EventKind)) :
    (thinkingHeard applied).length ≤ (thinkingSaid applied).length := by
  induction applied with
  | nil => exact Nat.le_refl _
  | cons p applied ih =>
    rw [thinkingHeard_cons, thinkingSaid_cons, String.length_append, String.length_append]
    rcases p.1.thinkingPiece?_cases p.2 with ⟨hsame, -⟩ | ⟨delta, -, -, hnone⟩
    · rw [hsame]
      exact Nat.add_le_add_left ih _
    · rw [hnone, Option.getD_none, String.length_empty, Nat.zero_add]
      exact ih.trans (Nat.le_add_left _ _)

/-- All that is said is heard, unless text comes to a session without messages. -/
theorem thinkingHeard_eq_thinkingSaid_iff :
    thinkingHeard applied = thinkingSaid applied ↔
      ∀ s delta, (s, .thinkingTextMessageContent delta) ∈ applied → s.messages = [] →
        delta = "" := by
  induction applied with
  | nil => exact iff_of_true rfl nofun
  | cons p applied ih =>
    rw [thinkingHeard_cons, thinkingSaid_cons]
    rcases p.1.thinkingPiece?_cases p.2 with ⟨hsame, hempty⟩ | ⟨delta, hnil, hk, hnone⟩
    · rw [hsame, String.append_right_inj, ih]
      constructor
      · intro h s delta hmem hnil
        rcases List.mem_cons.1 hmem with rfl | hmem
        · exact hempty hnil
        · exact h s delta hmem hnil
      · intro h s delta hmem
        exact h s delta (List.mem_cons_of_mem p hmem)
    · -- what is not heard cannot be made up for, since nothing is heard that is not said
      have hp : p = (p.1, .thinkingTextMessageContent delta) := Prod.ext rfl hk
      have hpiece : p.2.thinkingPiece? = some delta := by
        rw [hk]
        rfl
      have hlength := length_thinkingHeard_le applied
      rw [hnone, hpiece, Option.getD_none, Option.getD_some, String.empty_append]
      constructor
      · intro h
        have hdelta : delta = "" := by
          rw [h, String.length_append] at hlength
          exact String.length_eq_zero_iff.1 (by omega)
        rw [hdelta, String.empty_append, ih] at h
        intro s other hmem hs
        rcases List.mem_cons.1 hmem with heq | hmem
        · rw [hp, hdelta] at heq
          exact EventKind.thinkingTextMessageContent.inj (congrArg Prod.snd heq)
        · exact h s other hmem hs
      · intro h
        have hdelta : delta = "" := h p.1 delta (hp ▸ List.mem_cons_self) hnil
        rw [hdelta, String.empty_append, ih]
        intro s other hmem
        exact h s other (List.mem_cons_of_mem p hmem)

/-! ## The buffer -/

/-- A thinking message is open under an identifier, and a text has been gathered of it. -/
structure Thinks (id text : String) (s : Session) : Prop where
  openThinking : s.openThinking = some id
  get?_eq : s.textBuffers.get? id = some text

theorem Thinks.congr (hs : Thinks id text s) (hsame : SameTexts s s') : Thinks id text s' where
  openThinking := hsame.openThinking.trans hs.openThinking
  get?_eq := hsame.textBuffers ▸ hs.get?_eq

theorem thinks_startThinking (s : Session) :
    Thinks (s.drawId .thinking).1 "" s.startThinking.session where
  openThinking := s.startThinking_session.2
  get?_eq := by
    rw [s.startThinking_session.1]
    exact Dict.get?_insert_self _ _ _

theorem Thinks.continueThinking (hs : Thinks id text s) (delta : String) :
    let piece := s.thinkingPiece? (.thinkingTextMessageContent delta)
    Thinks id (text ++ piece.getD "") (s.continueThinking delta).session := by
  intro piece
  by_cases hnil : s.messages = []
  · have hpiece : piece = none := if_pos (by rw [hnil]; rfl)
    rw [continueThinking_of_nil hnil, hpiece, Option.getD_none, String.append_empty]
    exact hs
  · have hpiece : piece = some delta := if_neg fun hempty ↦ hnil (List.isEmpty_iff.1 hempty)
    rw [continueThinking_of_some hnil hs.openThinking, hpiece, Option.getD_some]
    refine ⟨hs.openThinking, ?_⟩
    rw [Dict.get?_appendText, if_pos rfl, hs.get?_eq, Option.map_some]

/-- **One event.** While a thinking message goes on, its buffer gains the piece that an event
brings, if it is heard. -/
theorem Thinks.apply (hs : Thinks id text s) (hbound : k.isThinkingBound = false)
    (hkey : k.key? ≠ some (.text id)) :
    Thinks id (text ++ (s.thinkingPiece? k).getD "") (s.apply k).session := by
  have hnone (hk : k.thinkingPiece? = none) : (s.thinkingPiece? k).getD "" = "" := by
    rw [Session.thinkingPiece?, hk, ite_self]
    rfl
  have hother {other : String} (hk : k.key? = some (.text other)) : other ≠ id :=
    fun heq ↦ hkey (heq ▸ hk)
  cases k with
  | thinkingTextMessageStart => cases hbound
  | thinkingTextMessageEnd => cases hbound
  | thinkingTextMessageContent delta => exact hs.continueThinking delta
  | textMessageStart other role =>
    rw [hnone rfl, String.append_empty]
    change Thinks id text (s.startText other).session
    rw [(s.startText_eq other).2]
    exact ⟨hs.openThinking, (Dict.get?_insert_of_ne _ (hother rfl) "").trans hs.get?_eq⟩
  | textMessageContent other delta =>
    rw [hnone rfl, String.append_empty]
    refine ⟨hs.openThinking, (Dict.get?_appendText _ other delta id).trans ?_⟩
    rw [if_neg (hother rfl), hs.get?_eq]
  | textMessageEnd other =>
    rw [hnone rfl, String.append_empty]
    exact ⟨hs.openThinking, (Dict.get?_erase_of_ne _ (hother rfl)).trans hs.get?_eq⟩
  | _ =>
    rw [hnone rfl, String.append_empty]
    exact hs.congr (sameTexts_apply rfl)

theorem Thinks.perform (hs : Thinks id text s) {op : Operation σ}
    (hop : ∀ k, s.applied? op = some k →
      k.isThinkingBound = false ∧ k.key? ≠ some (.text id)) :
    Thinks id (text ++ ((s.applied? op).bind s.thinkingPiece?).getD "") (s.perform op) := by
  rcases s.perform_cases op with ⟨k, other, happlied, -, hperform⟩ | ⟨hnone, hsame⟩
  · obtain ⟨hbound, hkey⟩ := hop k happlied
    rw [happlied, hperform]
    exact hs.apply hbound hkey
  · rw [hnone, Option.bind_none, Option.getD_none, String.append_empty]
    exact hs.congr hsame.toSameTexts

/-- **A run.** While a thinking message goes on, its buffer gains what is heard. -/
theorem Thinks.performAll (hs : Thinks id text s) {ops : List (Operation σ)}
    (hops : ∀ k ∈ s.history ops, k.isThinkingBound = false ∧ k.key? ≠ some (.text id)) :
    Thinks id (text ++ thinkingHeard (s.applied ops)) (s.performAll ops) := by
  induction ops generalizing s text with
  | nil =>
    rw [show thinkingHeard (s.applied ([] : List (Operation σ))) = "" from rfl,
      String.append_empty]
    exact hs
  | cons op ops ih =>
    rw [history_cons] at hops
    have hfirst := hs.perform fun k hk ↦ hops k (List.mem_append_left _ (Option.mem_toList.2 hk))
    have hrest := ih hfirst fun k hk ↦ hops k (List.mem_append_right _ hk)
    have hheard : thinkingHeard (s.applied (op :: ops)) =
        ((s.applied? op).bind s.thinkingPiece?).getD "" ++
          thinkingHeard ((s.perform op).applied ops) := by
      rw [applied]
      cases s.applied? op with
      | none => exact String.empty_append.symm
      | some k => exact thinkingHeard_cons (s, k) _
    rw [hheard, ← String.append_assoc]
    exact hrest

theorem Thinks.endThinking (hs : Thinks id text s) :
    s.endThinking.outcome = .ok text ∧
      s.endThinking.session.textBuffers = s.textBuffers.erase id ∧
      s.endThinking.session.openThinking = none := by
  rw [endThinking_of_some hs.openThinking, Dict.closeText, hs.get?_eq]
  exact ⟨rfl, rfl, rfl⟩

/-! ## From the start to the end -/

/-- **The text of a thinking message.** Let a thinking message be started in any session, and let
operations follow of which none starts or ends a thinking message or uses the identifier that was
drawn for a text message. Then the message is open, and its buffer holds what was heard of it. This
is all that was said, in its order, exactly if no text came to a session without messages. With the
end of the message its buffer is removed, and subscribers are shown what it held. -/
theorem thinking_gathered (s₀ : Session) (subscribers : List (Subscriber σ)) (start : Event)
    (memory : σ) (ops : List (Operation σ)) (hstart : start.kind = .thinkingTextMessageStart)
    (hpasses : s₀.passes subscribers start memory = true) :
    let id := (s₀.drawId .thinking).1
    let begun := (s₀.handle subscribers start memory).session
    let s := begun.performAll ops
    let heard := thinkingHeard (begun.applied ops)
    (∀ k ∈ begun.history ops, k.isThinkingBound = false ∧ k.key? ≠ some (.text id)) →
      s.openThinking = some id ∧ s.textBuffers.get? id = some heard ∧
        (heard = thinkingSaid (begun.applied ops) ↔
          ∀ s' delta, (s', .thinkingTextMessageContent delta) ∈ begun.applied ops →
            s'.messages = [] → delta = "") ∧
        ∀ (listeners : List (Subscriber σ)) (e : Event) (remembered : σ),
          e.kind = .thinkingTextMessageEnd → s.passes listeners e remembered = true →
            let ended := (s.handle listeners e remembered).session
            let answer := ended.askKind listeners e.kind heard
              (s.memoryAfter listeners e remembered)
            s.handle listeners e remembered = ⟨ended, answer.2, answer.1⟩ ∧
              ended.textBuffers = s.textBuffers.erase id ∧ ended.openThinking = none := by
  intro id begun s heard hops
  have hbegun : begun = s₀.startThinking.session := by
    rw [show begun = _ from s₀.handle_session subscribers start memory, if_pos hpasses, hstart]
    rfl
  have hs : Thinks id heard s := by
    have hopen : Thinks id "" begun := hbegun ▸ s₀.thinks_startThinking
    have hgathered := hopen.performAll hops
    rwa [String.empty_append] at hgathered
  refine ⟨hs.openThinking, hs.get?_eq, thinkingHeard_eq_thinkingSaid_iff, ?_⟩
  intro listeners e remembered hend hpasses' ended answer
  obtain ⟨houtcome, herased, hclosed⟩ := hs.endThinking
  have hended : ended = s.endThinking.session := by
    rw [show ended = _ from s.handle_session listeners e remembered, if_pos hpasses', hend]
    rfl
  have htext : (s.apply e.kind).outcome = .ok heard := by
    rw [hend]
    exact houtcome
  refine ⟨?_, hended ▸ herased, hended ▸ hclosed⟩
  have hhandle := handle_of_apply_ok hpasses' htext
  have hsession : (s.apply e.kind).session = ended := by
    rw [hend, hended]
    rfl
  rw [hsession] at hhandle
  exact hhandle

/-- The messages are replaced while a thinking message is open, by an event and by a mutation, and a
text message is started in between. -/
theorem thinking_gathered_replaced :
    let handled (kind : EventKind) : Operation (List String) :=
      .handle [] { kind, timestamp := 0 } []
    let user : Message := { id := "u", role := .user, content := "?" }
    let ops : List (Operation (List String)) :=
      [handled (.messagesSnapshot [user]),
        handled (.thinkingTextMessageContent "first"),
        handled (.textMessageStart "m" .assistant),
        handled (.textMessageContent "m" "answer"),
        .commit { messages := some [] },
        handled (.thinkingTextMessageContent ""),
        handled (.messagesSnapshot [user]),
        handled (.thinkingTextMessageContent ", last")]
    let recorder : Subscriber (List String) :=
      { onKind := fun _ text _ memory ↦ (.ok .nothing, memory ++ [text]) }
    let s₀ : Session := {}
    let silent : List (Subscriber (List String)) := []
    let start : Event := { kind := .thinkingTextMessageStart, timestamp := 0 }
    let id := (s₀.drawId .thinking).1
    let begun := (s₀.handle silent start []).session
    let s := begun.performAll ops
    (∀ k ∈ begun.history ops, k.isThinkingBound = false ∧ k.key? ≠ some (.text id)) ∧
      id = "thk_1" ∧ thinkingSaid (begun.applied ops) = "first, last" ∧
      s.textBuffers.get? id = some "first, last" ∧
      (s.handle [recorder] { kind := .thinkingTextMessageEnd, timestamp := 0 } []).memory =
        ["first, last"] := by
  intro handled user ops recorder s₀ silent start id begun s
  have hops : ∀ k ∈ begun.history ops, k.isThinkingBound = false ∧ k.key? ≠ some (.text id) := by
    decide
  have hheard : thinkingHeard (begun.applied ops) = "first, last" := by decide
  obtain ⟨-, hbuffer, -, hshown⟩ := thinking_gathered s₀ silent start [] ops rfl rfl hops
  refine ⟨hops, by decide, by decide, hbuffer.trans (congrArg some hheard), ?_⟩
  let e : Event := { kind := .thinkingTextMessageEnd, timestamp := 0 }
  obtain ⟨hhandle, -⟩ := hshown [recorder] e [] rfl rfl
  have hbefore : s.memoryAfter [recorder] e [] = [] := by decide
  change (s.handle [recorder] e []).memory = _
  rw [hhandle, hheard, hbefore]
  rfl

/-- A list without messages replaces the old one while a thinking message is open. The piece that
comes next is not among what subscribers are shown at the end. -/
theorem thinking_gathered_dropped :
    let handled (kind : EventKind) : Operation (List String) :=
      .handle [] { kind, timestamp := 0 } []
    let ops : List (Operation (List String)) :=
      [handled (.messagesSnapshot []), handled (.thinkingTextMessageContent "x")]
    let recorder : Subscriber (List String) :=
      { onKind := fun _ text _ memory ↦ (.ok .nothing, memory ++ [text]) }
    let s₀ : Session := {}
    let silent : List (Subscriber (List String)) := []
    let start : Event := { kind := .thinkingTextMessageStart, timestamp := 0 }
    let id := (s₀.drawId .thinking).1
    let begun := (s₀.handle silent start []).session
    let s := begun.performAll ops
    (∀ k ∈ begun.history ops, k.isThinkingBound = false ∧ k.key? ≠ some (.text id)) ∧
      thinkingSaid (begun.applied ops) = "x" ∧ s.textBuffers.get? id = some "" ∧
      (s.handle [recorder] { kind := .thinkingTextMessageEnd, timestamp := 0 } []).memory =
        [""] := by
  decide

end Session

end AgentSession
