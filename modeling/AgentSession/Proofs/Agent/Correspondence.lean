import AgentSession.Proofs.Agent.Pieces
import Mathlib.Data.List.Forall2
/-!
# Corresponding runs

Two runs may do the same things although they remember them differently or are told different
times. This module says when they do, and shows that it stays so to the end of a run.

## The relation

A `Correspondence σ τ` relates memories of type `σ` to memories of type `τ`, and times to times. It
extends to all that subscribers and stages are shown and answer: events and scenes correspond if
they are the same but for their times and memories, and subscribers and stages correspond if they
take what corresponds to what corresponds. Everything else that a run holds has to be the same.

## The use of it

The identity makes every two runs correspond that are the same. Where the times are not compared,
subscribers and stages that correspond to themselves are those that do not look at the clock
(`Correspondence.timeless`). Where the second memory holds the first and a record besides, a run
corresponds to one that keeps a record of itself.

The run lemma `Correspondence.SameRun.complete` follows the run: one lemma for each function that a
run passes through, from asking a single subscriber up to the end.
-/

namespace AgentSession

variable {σ τ : Type}

/-- When what one run is told and remembers counts as the same as what another does. -/
structure Correspondence (σ τ : Type) where
  /-- Which times count as the same. -/
  time : Int → Int → Prop
  /-- Which memories count as the same. -/
  memory : σ → τ → Prop
  /-- A time that both read from a document counts as the same. -/
  time_refl : ∀ t, time t t

namespace Correspondence

variable (C : Correspondence σ τ)

/-! ## What is shown and answered -/

/-- The same answer, with corresponding memories. -/
def Answers {α : Type} (x : α × σ) (y : α × τ) : Prop := x.1 = y.1 ∧ C.memory x.2 y.2

/-- The same event but for its time. -/
structure SameEvent (e e' : Event) : Prop where
  kind : e.kind = e'.kind
  timestamp : C.time e.timestamp e'.timestamp
  source : e.source = e'.source

/-- The same context but for its time. -/
structure SameContext (c c' : Context) : Prop where
  input : c.input = c'.input
  messages : c.messages = c'.messages
  state : c.state = c'.state
  now : C.time c.now c'.now
  proceed : c.proceed = c'.proceed
  metadata : c.metadata = c'.metadata

/-- Corresponding contexts with corresponding memories. -/
structure SameScene (s : Scene σ) (s' : Scene τ) : Prop where
  context : C.SameContext s.context s'.context
  memory : C.memory s.memory s'.memory

/-- Related results, with corresponding scenes. -/
def Acts {α β : Type} (R : α → β → Prop) (x : α × Scene σ) (y : β × Scene τ) : Prop :=
  R x.1 y.1 ∧ C.SameScene x.2 y.2

/-! ## Subscribers and stages -/

/-- Subscribers that answer the same to what corresponds. -/
structure SameSubscriber (b : Subscriber σ) (b' : Subscriber τ) : Prop where
  onEvent : ∀ {e e' m m'} (view : View), C.SameEvent e e' → C.memory m m' →
    C.Answers (b.onEvent e view m) (b'.onEvent e' view m')
  onKind : ∀ {m m'} (kind : EventKind) (text : String) (view : View), C.memory m m' →
    C.Answers (b.onKind kind text view m) (b'.onKind kind text view m')
  notify : ∀ {m m'} (notice : Notice), C.memory m m' →
    C.memory (b.notify notice m) (b'.notify notice m')

/-- Stages that make the same of what corresponds. -/
structure SameStage (g : Stage σ) (g' : Stage τ) : Prop where
  admitsRun : ∀ {s s'} (input : RunInput), C.SameScene s s' →
    C.Answers (g.admitsRun input s) (g'.admitsRun input s')
  onRequest : ∀ {s s'} (input : RunInput), C.SameScene s s' →
    C.Acts Eq (g.onRequest input s) (g'.onRequest input s')
  onResponse : ∀ {s s'} (result : RunResult), C.SameScene s s' →
    C.Acts Eq (g.onResponse result s) (g'.onResponse result s')
  onError : ∀ {s s'} (failure : Failure), C.SameScene s s' →
    C.Acts Eq (g.onError failure s) (g'.onError failure s')
  admitsEvent : ∀ {e e' s s'}, C.SameEvent e e' → C.SameScene s s' →
    C.Answers (g.admitsEvent e s) (g'.admitsEvent e' s')
  beforeEvent : ∀ {e e' s s'}, C.SameEvent e e' → C.SameScene s s' →
    C.Acts (List.Forall₂ C.SameEvent) (g.beforeEvent e s) (g'.beforeEvent e' s')
  onEvent : ∀ {e e' s s'}, C.SameEvent e e' → C.SameScene s s' →
    C.Acts (Option.Rel C.SameEvent) (g.onEvent e s) (g'.onEvent e' s')
  afterEvent : ∀ {e e' s s'}, C.SameEvent e e' → C.SameScene s s' →
    C.Acts (List.Forall₂ C.SameEvent) (g.afterEvent e s) (g'.afterEvent e' s')

/-! ## Runs -/

/-- Clocks whose moments to come are the same but for the time. -/
structure SameClock (c c' : Clock) : Prop where
  now : ∀ n, C.time (c.moment (c.passed + n)).now (c'.moment (c'.passed + n)).now
  freshId : ∀ n, (c.moment (c.passed + n)).freshId = (c'.moment (c'.passed + n)).freshId

/-- Agents that are the same, but for what corresponds. -/
structure SameAgent (a : Agent σ) (a' : Agent τ) : Prop where
  endpoint : a.endpoint = a'.endpoint
  session : a.session = a'.session
  subscribers : List.Forall₂ C.SameSubscriber a.subscribers.values a'.subscribers.values
  stages : List.Forall₂ C.SameStage a.stages.values a'.stages.values
  framer : a.framer = a'.framer
  clock : C.SameClock a.clock a'.clock
  memory : C.memory a.memory a'.memory

/-- Runs of such agents about which the same is known. -/
structure SameRun (r : Running σ) (r' : Running τ) : Prop where
  agent : C.SameAgent r.agent r'.agent
  run : r.run = r'.run

variable {C}

theorem Answers.exists {α : Type} {x : α × σ} {y : α × τ} (h : C.Answers x y) :
    ∃ answer m m', x = (answer, m) ∧ y = (answer, m') ∧ C.memory m m' :=
  ⟨x.1, x.2, y.2, rfl, by rw [h.1], h.2⟩

theorem Acts.exists {α β : Type} {R : α → β → Prop} {x : α × Scene σ} {y : β × Scene τ}
    (h : C.Acts R x y) :
    ∃ a b s s', x = (a, s) ∧ y = (b, s') ∧ R a b ∧ C.SameScene s s' :=
  ⟨x.1, y.1, x.2, y.2, rfl, rfl, h⟩

/-! ## Asking and telling -/

section Subscribers

variable {bs : List (Subscriber σ)} {bs' : List (Subscriber τ)} {m : σ} {m' : τ}

theorem askAll {ask : Subscriber σ → σ → Answer σ} {ask' : Subscriber τ → τ → Answer τ}
    (hbs : List.Forall₂ C.SameSubscriber bs bs')
    (hask : ∀ b b', C.SameSubscriber b b' →
      ∀ m m', C.memory m m' → C.Answers (ask b m) (ask' b' m'))
    (hm : C.memory m m') :
    C.Answers (Subscriber.askAll ask bs m) (Subscriber.askAll ask' bs' m') := by
  induction hbs generalizing m m' with
  | nil => exact ⟨rfl, hm⟩
  | @cons b b' rest rest' hb _ ih =>
    obtain ⟨answer, n, n', hn, hn', hm⟩ := (hask b b' hb m m' hm).exists
    simp only [Subscriber.askAll, hn, hn']
    rcases answer with failure | mutation
    · exact ⟨rfl, hm⟩
    · dsimp only
      -- both answers ask to stop or neither does, since they are equal
      split
      · exact ⟨rfl, hm⟩
      · obtain ⟨later, n, n', hn, hn', hm⟩ := (ih hm).exists
        rw [hn, hn']
        rcases later with failure | later <;> exact ⟨rfl, hm⟩

theorem tell (hbs : List.Forall₂ C.SameSubscriber bs bs') (notice : Notice) (hm : C.memory m m') :
    C.memory (Subscriber.tell bs notice m) (Subscriber.tell bs' notice m') :=
  List.rel_foldl (fun _ _ hm _ _ hb ↦ hb.notify notice hm) hm hbs

theorem tellAll (hbs : List.Forall₂ C.SameSubscriber bs bs') (notices : List Notice)
    (hm : C.memory m m') :
    C.memory (Subscriber.tellAll bs notices m) (Subscriber.tellAll bs' notices m') := by
  induction notices generalizing m m' with
  | nil => exact hm
  | cons notice notices ih => exact ih (tell hbs notice hm)

/-- A session handles what corresponds in the same way. -/
theorem sessionHandle (hbs : List.Forall₂ C.SameSubscriber bs bs') (hm : C.memory m m')
    {e e' : Event} (he : C.SameEvent e e') (s : Session) :
    ∃ session outcome n n', s.handle bs e m = ⟨session, n, outcome⟩ ∧
      s.handle bs' e' m' = ⟨session, n', outcome⟩ ∧ C.memory n n' := by
  unfold Session.handle
  obtain ⟨answer, n, n', hn, hn', hm⟩ :=
    (askAll hbs (fun _ _ hb _ _ hm ↦ hb.onEvent s.view he hm) hm).exists
  simp only [hn, hn', he.kind]
  rcases answer with failure | mutation
  · exact ⟨_, _, _, _, rfl, rfl, hm⟩
  · dsimp only
    split
    · exact ⟨_, _, _, _, rfl, rfl, hm⟩
    · have htold := tellAll hbs (s.apply e'.kind).notices hm
      rcases (s.apply e'.kind).outcome with failure | text
      · exact ⟨_, _, _, _, rfl, rfl, htold⟩
      · obtain ⟨answer, n, n', hn, hn', hm⟩ :=
          (askAll hbs (fun _ _ hb _ _ hm ↦
            hb.onKind e'.kind text (s.apply e'.kind).session.view hm) htold).exists
        simp only [hn, hn']
        exact ⟨_, _, _, _, rfl, rfl, hm⟩

end Subscribers

/-! ## Passing the stages -/

section Stages

variable {gs : List (Stage σ)} {gs' : List (Stage τ)} {s : Scene σ} {s' : Scene τ}

theorem SameScene.recall (hs : C.SameScene s s') {m : σ} {m' : τ} (hm : C.memory m m') :
    C.SameScene (s.recall m) (s'.recall m') := ⟨hs.context, hm⟩

/-- Passages of which all events correspond. -/
structure SamePassage (C : Correspondence σ τ) (p p' : Chain.Passage) : Prop where
  before : List.Forall₂ C.SameEvent p.before p'.before
  current : Option.Rel C.SameEvent p.current p'.current
  after : List.Forall₂ C.SameEvent p.after p'.after

theorem forall₂_toList {α β : Type} {R : α → β → Prop} {a : Option α} {b : Option β}
    (h : Option.Rel R a b) : List.Forall₂ R a.toList b.toList := by
  cases h with
  | some h => exact .cons h .nil
  | none => exact .nil

theorem SamePassage.events {p p' : Chain.Passage} (h : C.SamePassage p p') :
    List.Forall₂ C.SameEvent p.events p'.events :=
  List.rel_append (List.rel_append h.before (forall₂_toList h.current)) h.after

theorem passage (hgs : List.Forall₂ C.SameStage gs gs') (hs : C.SameScene s s') {e e' : Event}
    (he : C.SameEvent e e') :
    C.Acts (Option.Rel C.SamePassage) (Chain.passage gs e s) (Chain.passage gs' e' s') := by
  induction hgs generalizing s s' e e' with
  | nil => exact ⟨.some ⟨.nil, .some he, .nil⟩, hs⟩
  | @cons g g' rest rest' hg _ ih =>
    obtain ⟨admitted, m, m', hm, hm', hmemory⟩ := (hg.admitsEvent he hs).exists
    obtain ⟨before, before', t, t', ht, ht', hbefore, hscene⟩ :=
      (hg.beforeEvent he (hs.recall hmemory)).exists
    obtain ⟨current, current', u, u', hu, hu', hcurrent, hscene⟩ := (hg.onEvent he hscene).exists
    simp only [Chain.passage, hm, hm', ht, ht', hu, hu']
    split
    · cases hcurrent with
      | none => exact ⟨.some ⟨hbefore, .none, .nil⟩, hscene⟩
      | @some f f' hf =>
        obtain ⟨after, after', v, v', hv, hv', hafter, hscene⟩ := (hg.afterEvent hf hscene).exists
        obtain ⟨p, p', w, w', hw, hw', hp, hscene⟩ := (ih hscene hf).exists
        simp only [hv, hv', hw, hw']
        cases hp with
        | none => exact ⟨.none, hscene⟩
        | some hp =>
          exact ⟨.some ⟨List.rel_append hbefore hp.before, hp.current,
            List.rel_append hafter hp.after⟩, hscene⟩
    · -- refused: what earlier stages have added is given up as well
      exact ⟨.none, hs.recall hmemory⟩

theorem event (hgs : List.Forall₂ C.SameStage gs gs') (hs : C.SameScene s s') {e e' : Event}
    (he : C.SameEvent e e') :
    C.Acts (List.Forall₂ C.SameEvent) (Chain.event gs e s) (Chain.event gs' e' s') := by
  obtain ⟨p, p', t, t', ht, ht', hp, hscene⟩ := (passage hgs hs he).exists
  simp only [Chain.event, ht, ht']
  cases hp with
  | none => exact ⟨.nil, hscene⟩
  | some hp => exact ⟨hp.events, hscene⟩

theorem request (hgs : List.Forall₂ C.SameStage gs gs') (hs : C.SameScene s s')
    (input : RunInput) : C.Acts Eq (Chain.request gs input s) (Chain.request gs' input s') := by
  induction hgs generalizing s s' input with
  | nil => exact ⟨rfl, hs⟩
  | @cons g g' rest rest' hg _ ih =>
    obtain ⟨admitted, m, m', hm, hm', hmemory⟩ := (hg.admitsRun input hs).exists
    obtain ⟨input, _, t, t', ht, ht', rfl, hscene⟩ :=
      (hg.onRequest input (hs.recall hmemory)).exists
    simp only [Chain.request, hm, hm', ht, ht']
    split
    · exact ih hscene input
    · exact ⟨rfl, { hscene.context with proceed := rfl }, hscene.memory⟩

theorem response (hgs : List.Forall₂ C.SameStage gs gs') (hs : C.SameScene s s')
    (result : RunResult) :
    C.Acts Eq (Chain.response gs result s) (Chain.response gs' result s') := by
  induction hgs with
  | nil => exact ⟨rfl, hs⟩
  | @cons g g' rest rest' hg _ ih =>
    obtain ⟨a, _, t, t', ht, ht', rfl, hscene⟩ := ih.exists
    simp only [Chain.response, List.foldr_cons] at ht ht' ⊢
    rw [ht, ht']
    exact hg.onResponse a hscene

theorem error (hgs : List.Forall₂ C.SameStage gs gs') (hs : C.SameScene s s')
    (failure : Failure) : C.Acts Eq (Chain.error gs failure s) (Chain.error gs' failure s') := by
  induction hgs with
  | nil => exact ⟨rfl, hs⟩
  | @cons g g' rest rest' hg _ ih =>
    obtain ⟨a, _, t, t', ht, ht', rfl, hscene⟩ := ih.exists
    simp only [Chain.error, List.foldr_cons] at ht ht' ⊢
    rw [ht, ht']
    cases a with
    | none => exact ⟨rfl, hscene⟩
    | some failure => exact hg.onError failure hscene

end Stages

/-! ## Runs -/

section Runs

variable {a : Agent σ} {a' : Agent τ} {r : Running σ} {r' : Running τ}

theorem SameClock.now_present {c c' : Clock} (h : C.SameClock c c') :
    C.time c.present.now c'.present.now := h.now 0

theorem SameClock.freshId_present {c c' : Clock} (h : C.SameClock c c') :
    c.present.freshId = c'.present.freshId := h.freshId 0

theorem SameClock.tick {c c' : Clock} (h : C.SameClock c c') : C.SameClock c.tick c'.tick := by
  refine ⟨fun n ↦ ?_, fun n ↦ ?_⟩
  · simpa [Clock.tick, Nat.add_assoc] using h.now (1 + n)
  · simpa [Clock.tick, Nat.add_assoc] using h.freshId (1 + n)

theorem SameRun.scene (h : C.SameRun r r') : C.SameScene r.scene r'.scene where
  context :=
    { input := congrArg (fun run : Run ↦ some run.input) h.run
      messages := congrArg Session.messages h.agent.session
      state := congrArg Session.state h.agent.session
      now := h.agent.clock.now_present
      proceed := rfl
      metadata := congrArg Run.metadata h.run }
  memory := h.agent.memory

/-- The same answers of agents that correspond afterwards. -/
def SameReply (C : Correspondence σ τ) {α : Type} (x : α × Agent σ) (y : α × Agent τ) : Prop :=
  x.1 = y.1 ∧ C.SameAgent x.2 y.2

theorem SameReply.exists {α : Type} {x : α × Agent σ} {y : α × Agent τ} (h : C.SameReply x y) :
    ∃ reply b b', x = (reply, b) ∧ y = (reply, b') ∧ C.SameAgent b b' :=
  ⟨x.1, x.2, y.2, rfl, by rw [h.1], h.2⟩

theorem SameAgent.absorb (h : C.SameAgent a a') (params : RunParams) :
    C.SameAgent (a.absorb params) (a'.absorb params) := by
  have hreceive : C.SameAgent (params.messages.foldl Agent.receive a)
      (params.messages.foldl Agent.receive a') := by
    induction params.messages generalizing a a' with
    | nil => exact h
    | cons m rest ih =>
      exact ih { h with
        session := congrArg (fun s : Session ↦ s.addMessage m) h.session
        memory := tell h.subscribers _ h.memory }
  unfold Agent.absorb
  cases params.state with
  | none => exact hreceive
  | some doc =>
    exact { hreceive with session := congrArg (fun s : Session ↦ s.setState doc) hreceive.session }

theorem SameAgent.idOr (h : C.SameAgent a a') (kind : IdKind) (given : Option String) :
    C.SameReply (a.idOr kind given) (a'.idOr kind given) := by
  cases given with
  | some id => exact ⟨rfl, h⟩
  | none =>
    exact ⟨congrArg (fun s : Session ↦ (s.drawId kind).1) h.session,
      { h with session := congrArg (fun s : Session ↦ (s.drawId kind).2) h.session }⟩

theorem SameAgent.assemble (h : C.SameAgent a a') (params : RunParams) :
    C.SameReply (a.assemble params) (a'.assemble params) := by
  obtain ⟨threadId, b, b', hb, hb', h⟩ := (h.idOr .thread params.threadId).exists
  obtain ⟨runId, d, d', hd, hd', h⟩ := (h.idOr .run params.runId).exists
  simp only [Agent.assemble, hb, hb', hd, hd']
  exact ⟨by simp only [h.session], h⟩

theorem SameAgent.prepare (h : C.SameAgent a a') (params : RunParams) :
    C.SameReply (a.prepare params) (a'.prepare params) := by
  obtain ⟨input, b, b', hb, hb', h⟩ := ((h.absorb params).assemble params).exists
  have hscene : C.SameScene (b.scene none []) (b'.scene none []) :=
    { context :=
        { input := rfl
          messages := congrArg Session.messages h.session
          state := congrArg Session.state h.session
          now := h.clock.now_present
          proceed := rfl
          metadata := rfl }
      memory := h.memory }
  obtain ⟨input, _, s, s', hs, hs', rfl, hscene⟩ := (request h.stages hscene input).exists
  simp only [Agent.prepare, hb, hb', hs, hs', hscene.context.proceed, hscene.context.metadata]
  have hresume : C.SameAgent (b.resume s) (b'.resume s') :=
    { h with clock := h.clock.tick, memory := hscene.memory }
  split
  · exact ⟨rfl, hresume⟩
  · exact ⟨rfl, hresume⟩

theorem SameAgent.begin (h : C.SameAgent a a')
    (request : RunRequest) : C.SameRun (a.begin request) (a'.begin request) where
  agent :=
    { h with
      session := congrArg (fun s : Session ↦ s.start request.input) h.session
      memory := tell h.subscribers _ h.memory
      framer := rfl }
  run := by simp only [Agent.begin, h.session]

theorem SameRun.resume (h : C.SameRun r r') {s : Scene σ} {s' : Scene τ} (hs : C.SameScene s s') :
    C.SameRun (r.resume s) (r'.resume s') where
  agent := { h.agent with clock := h.agent.clock.tick, memory := hs.memory }
  run := by simp only [Running.resume, h.run, hs.context.metadata]

theorem SameRun.remember {r : Running σ} {r' : Running τ} (h : C.SameRun r r') {m : σ} {m' : τ}
    (hm : C.memory m m') :
    C.SameRun { r with agent := { r.agent with memory := m } }
      { r' with agent := { r'.agent with memory := m' } } :=
  ⟨{ h.agent with memory := hm }, h.run⟩

theorem SameRun.withFramer (h : C.SameRun r r') (framer : Framer) :
    C.SameRun (r.withFramer framer) (r'.withFramer framer) :=
  ⟨{ h.agent with framer := rfl }, h.run⟩

theorem SameRun.handle (h : C.SameRun r r') {e e' : Event} (he : C.SameEvent e e') :
    C.SameRun (r.handle e) (r'.handle e') := by
  obtain ⟨session, outcome, m, m', hm, hm', hmemory⟩ :=
    sessionHandle h.agent.subscribers h.agent.memory he r'.agent.session
  simp only [Running.handle, Agent.handle, h.agent.session, hm, hm']
  rcases outcome with failure | mutation
  · exact ⟨{ h.agent with session := rfl, memory := hmemory }, h.run⟩
  · refine ⟨{ h.agent with session := rfl, memory := tellAll h.agent.subscribers _ hmemory }, ?_⟩
    dsimp only
    rw [h.run]

theorem SameRun.takeEvent (h : C.SameRun r r') {e e' : Event} (he : C.SameEvent e e') :
    C.SameRun (r.takeEvent e) (r'.takeEvent e') := by
  obtain ⟨events, events', s, s', hs, hs', hevents, hscene⟩ :=
    (event h.agent.stages h.scene he).exists
  simp only [Running.takeEvent, hs, hs']
  exact List.rel_foldl (fun _ _ h _ _ he ↦ h.handle he) (h.resume hscene) hevents

/-- What a payload says is the same but for the time at which it is read. -/
theorem decode {m m' : Moment} (hnow : C.time m.now m'.now) (hfresh : m.freshId = m'.freshId)
    (payload : String) :
    (∃ e e', Running.decode m payload = .ok e ∧ Running.decode m' payload = .ok e' ∧
      C.SameEvent e e') ∨
    ∃ failure, Running.decode m payload = .error failure ∧
      Running.decode m' payload = .error failure := by
  unfold Running.decode
  -- only an object that names a type is an event, and all else fails for a reason of its own
  cases Json.parse payload with
  | none => exact .inr ⟨_, rfl, rfl⟩
  | some doc =>
    cases doc with
    | obj members =>
      simp only [Event.ofJson]
      cases (Json.obj members).textField? ["type"] with
      | none => exact .inr ⟨_, rfl, rfl⟩
      | some typeName =>
        refine .inl ⟨_, _, rfl, rfl, ?_, ?_, rfl⟩
        · simp only [Event.readKind, hfresh]
        · cases Event.timeField? (.obj members) with
          | none => exact hnow
          | some t => exact C.time_refl t
    | null | bool | num | str | arr => exact .inr ⟨_, rfl, rfl⟩

/-- Runs that lead to the same failure or to none, and correspond afterwards. -/
def SameStep (C : Correspondence σ τ) {α : Type} (x : α × Running σ) (y : α × Running τ) : Prop :=
  x.1 = y.1 ∧ C.SameRun x.2 y.2

theorem SameStep.exists {α : Type} {x : α × Running σ} {y : α × Running τ} (h : C.SameStep x y) :
    ∃ a r r', x = (a, r) ∧ y = (a, r') ∧ C.SameRun r r' :=
  ⟨x.1, x.2, y.2, rfl, by rw [h.1], h.2⟩

theorem SameRun.processAll (h : C.SameRun r r') (payloads : List String) :
    C.SameStep (r.processAll payloads) (r'.processAll payloads) := by
  have hleave {q : Running σ} {q' : Running τ} (h : C.SameRun q q') (ready : List String) :
      C.SameRun (q.leave ready) (q'.leave ready) := by
    rw [Running.leave, Running.leave, h.agent.framer]
    exact h.withFramer _
  induction payloads generalizing r r' with
  | nil => exact ⟨rfl, hleave h []⟩
  | cons payload rest ih =>
    simp only [Running.processAll, Running.process, h.agent.endpoint]
    obtain ⟨e, e', he, he', hsame⟩ | ⟨failure, hf, hf'⟩ :=
      decode h.agent.clock.now_present h.agent.clock.freshId_present payload
    · rw [he, he']
      exact ih (h.takeEvent hsame)
    · rw [hf, hf']
      cases r'.agent.endpoint.policy with
      | skip => exact ih h
      | abort => exact ⟨rfl, hleave h rest⟩

theorem SameRun.advance (h : C.SameRun r r') (framer : Framer) :
    C.SameStep (r.advance framer) (r'.advance framer) :=
  (h.withFramer framer).processAll framer.ready

theorem SameRun.feed (h : C.SameRun r r') (piece : Bytes) :
    C.SameStep (r.feed piece) (r'.feed piece) := by
  rw [Running.feed, Running.feed, h.agent.framer]
  exact h.advance _

theorem SameRun.feedAll (h : C.SameRun r r') (pieces : List Bytes) :
    C.SameStep (r.feedAll pieces) (r'.feedAll pieces) := by
  induction pieces generalizing r r' with
  | nil => exact ⟨rfl, h⟩
  | cons piece pieces ih =>
    obtain ⟨failure, q, q', hq, hq', h⟩ := (h.feed piece).exists
    simp only [Running.feedAll, hq, hq']
    rcases failure with _ | failure
    · exact ih h
    · exact ⟨rfl, h⟩

theorem SameRun.result (h : C.SameRun r r') : r.result = r'.result := by
  simp only [Running.result, h.run, h.agent.session]

theorem SameRun.tell (h : C.SameRun r r') (notice : Notice) :
    C.SameRun { r with agent := r.agent.tell notice } { r' with agent := r'.agent.tell notice } :=
  ⟨{ h.agent with memory := Correspondence.tell h.agent.subscribers notice h.agent.memory }, h.run⟩

theorem SameRun.finish (h : C.SameRun r r') : C.SameStep r.finish r'.finish := by
  obtain ⟨failure, q, q', hq, hq', h'⟩ := (h.advance r'.agent.framer.flush).exists
  simp only [Running.finish, h.agent.framer, hq, hq']
  rcases failure with _ | failure
  · obtain ⟨result, _, s, s', hs, hs', rfl, hscene⟩ :=
      (response h'.agent.stages h'.scene q'.result).exists
    simp only [h'.result, hs, hs']
    exact ⟨rfl, (h'.resume hscene).tell _⟩
  · exact ⟨rfl, h'⟩

theorem SameRun.fail (h : C.SameRun r r') (failure : Failure) :
    C.SameStep (r.fail failure) (r'.fail failure) := by
  have h := h.withFramer {}
  obtain ⟨left, _, s, s', hs, hs', rfl, hscene⟩ := (error h.agent.stages h.scene failure).exists
  unfold Running.withFramer at hs hs'
  simp only [Running.fail, hs, hs']
  cases left with
  | none => exact ⟨rfl, h.resume hscene⟩
  | some failure => exact ⟨rfl, (h.resume hscene).tell _⟩

theorem SameRun.settle (h : C.SameRun r r') (failure : Failure) :
    C.SameStep (r.settle failure) (r'.settle failure) := by
  obtain ⟨left, q, q', hq, hq', h⟩ := (h.fail failure).exists
  simp only [Running.settle, hq, hq']
  cases left <;> exact ⟨rfl, h⟩

/-- **Corresponding runs come to the same end.** -/
theorem SameRun.complete (h : C.SameRun r r') (pieces : List Bytes) :
    C.SameStep (r.complete pieces) (r'.complete pieces) := by
  obtain ⟨failure, q, q', hq, hq', h⟩ := (h.feedAll pieces).exists
  simp only [Running.complete, hq, hq']
  rcases failure with _ | failure
  · obtain ⟨outcome, p, p', hp, hp', h⟩ := h.finish.exists
    simp only [hp, hp']
    rcases outcome with failure | result
    · exact h.settle failure
    · exact ⟨rfl, h⟩
  · exact h.settle failure

end Runs

end Correspondence

end AgentSession
