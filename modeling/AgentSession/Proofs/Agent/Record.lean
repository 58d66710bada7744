import AgentSession.Proofs.Agent.Reception
/-!
# Records of hook calls

Whatever subscribers and stages remember is one memory, so a record of their calls can be kept
there. `Agent.recording` is an agent with the same subscribers and stages, each of which notes every
call, with all that it is shown, and answers as it did before.

Keeping the record changes nothing else (`Agent.recording_complete`). And agents that correspond
still correspond when they keep records, and so do the records
(`Correspondence.SameAgent.recording`).
-/

namespace AgentSession

variable {σ : Type}

/-! ## Calls -/

/-- A call of a subscriber, with what it is shown. -/
inductive SubscriberCall where
  /-- It is asked about an event in general. -/
  | onEvent (event : Event) (view : View)
  /-- It is asked about what an event says. -/
  | onKind (kind : EventKind) (text : String) (view : View)
  /-- It is told something. -/
  | notify (notice : Notice)

/-- A call of a stage, with what it acts on. -/
inductive StageCall where
  /-- It is asked whether a run may go on. -/
  | admitsRun (input : RunInput)
  /-- It acts on a request. -/
  | onRequest (input : RunInput)
  /-- It acts on a result. -/
  | onResponse (result : RunResult)
  /-- It acts on a failure. -/
  | onError (failure : Failure)
  /-- It is asked whether an event may be handled. -/
  | admitsEvent (event : Event)
  /-- It is asked for events before an event. -/
  | beforeEvent (event : Event)
  /-- It acts on an event. -/
  | onEvent (event : Event)
  /-- It is asked for events after an event. -/
  | afterEvent (event : Event)

/-- A call of a subscriber or a stage, with the number that it was given. -/
inductive NotedCall where
  /-- A call of a subscriber. -/
  | subscriber (number : Nat) (call : SubscriberCall)
  /-- A call of a stage in a context. -/
  | stage (number : Nat) (call : StageCall) (context : Context)

/-! ## Keeping a record -/

/-- A memory with a record of calls. -/
abbrev Recorded (σ : Type) := σ × List NotedCall

namespace Recorded

/-- An answer, and the record with the call that it answers. -/
def answer {α : Type} (x : α × σ) (calls : List NotedCall) : α × Recorded σ := (x.1, x.2, calls)

/-- A result with its scene, and the record with the call that led to it. -/
def result {α : Type} (x : α × Scene σ) (calls : List NotedCall) : α × Scene (Recorded σ) :=
  (x.1, ⟨x.2.context, x.2.memory, calls⟩)

end Recorded

/-- The scene with a record. -/
def Scene.recorded (s : Scene σ) (calls : List NotedCall) : Scene (Recorded σ) :=
  ⟨s.context, s.memory, calls⟩

/-- The scene without the record. -/
def Scene.forget (s : Scene (Recorded σ)) : Scene σ := ⟨s.context, s.memory.1⟩

/-- The record of a scene with one more call of a stage. -/
def Scene.noted (s : Scene (Recorded σ)) (number : Nat) (call : StageCall) : List NotedCall :=
  s.memory.2 ++ [.stage number call s.context]

/-- The subscriber with a number, noting every call. -/
def Subscriber.recording (number : Nat) (b : Subscriber σ) : Subscriber (Recorded σ) where
  onEvent e view m :=
    Recorded.answer (b.onEvent e view m.1) (m.2 ++ [.subscriber number (.onEvent e view)])
  onKind kind text view m :=
    Recorded.answer (b.onKind kind text view m.1)
      (m.2 ++ [.subscriber number (.onKind kind text view)])
  notify notice m := (b.notify notice m.1, m.2 ++ [.subscriber number (.notify notice)])

/-- The stage with a number, noting every call. -/
def Stage.recording (number : Nat) (g : Stage σ) : Stage (Recorded σ) where
  admitsRun input s :=
    Recorded.answer (g.admitsRun input s.forget) (s.noted number (.admitsRun input))
  onRequest input s :=
    Recorded.result (g.onRequest input s.forget) (s.noted number (.onRequest input))
  onResponse result s :=
    Recorded.result (g.onResponse result s.forget) (s.noted number (.onResponse result))
  onError failure s :=
    Recorded.result (g.onError failure s.forget) (s.noted number (.onError failure))
  admitsEvent e s :=
    Recorded.answer (g.admitsEvent e s.forget) (s.noted number (.admitsEvent e))
  beforeEvent e s :=
    Recorded.result (g.beforeEvent e s.forget) (s.noted number (.beforeEvent e))
  onEvent e s := Recorded.result (g.onEvent e s.forget) (s.noted number (.onEvent e))
  afterEvent e s := Recorded.result (g.afterEvent e s.forget) (s.noted number (.afterEvent e))

/-- The stages with their numbers, noting every call. -/
def Stage.recordings (gs : List (Nat × Stage σ)) : List (Stage (Recorded σ)) :=
  gs.map fun g ↦ g.2.recording g.1

/-- The stage with a record of its own making. -/
def Stage.keeping (g : Stage σ) (record : StageCall → Scene (Recorded σ) → List NotedCall) :
    Stage (Recorded σ) where
  admitsRun input s := Recorded.answer (g.admitsRun input s.forget) (record (.admitsRun input) s)
  onRequest input s := Recorded.result (g.onRequest input s.forget) (record (.onRequest input) s)
  onResponse result s :=
    Recorded.result (g.onResponse result s.forget) (record (.onResponse result) s)
  onError failure s := Recorded.result (g.onError failure s.forget) (record (.onError failure) s)
  admitsEvent e s := Recorded.answer (g.admitsEvent e s.forget) (record (.admitsEvent e) s)
  beforeEvent e s := Recorded.result (g.beforeEvent e s.forget) (record (.beforeEvent e) s)
  onEvent e s := Recorded.result (g.onEvent e s.forget) (record (.onEvent e) s)
  afterEvent e s := Recorded.result (g.afterEvent e s.forget) (record (.afterEvent e) s)

/-- The registry of what things with their numbers become. -/
def Registry.mapNumbered {α β : Type} (f : Nat → α → β) (r : Registry α) : Registry β :=
  { entries := r.entries.map fun entry ↦ (entry.1, f entry.1 entry.2), issued := r.issued }

namespace Agent

/-- The agent, keeping a record of all calls from now on. -/
def recording (a : Agent σ) : Agent (Recorded σ) :=
  { endpoint := a.endpoint
    session := a.session
    subscribers := a.subscribers.mapNumbered Subscriber.recording
    stages := a.stages.mapNumbered Stage.recording
    framer := a.framer
    clock := a.clock
    memory := (a.memory, []) }

/-- The calls of subscribers and stages while an agent begins a run and drives it to its end over
the pieces of an answer. -/
def calls (a : Agent σ) (request : RunRequest) (pieces : List Bytes) : List NotedCall :=
  ((a.recording.begin request).complete pieces).2.agent.memory.2

end Agent

/-- The same transport, which leaves the record as it is. -/
def Transport.recording (t : Transport σ) : Transport (Recorded σ) :=
  fun q m ↦ Recorded.answer (t q m.1) m.2

/-- The same source, which leaves the record as it is. -/
def Source.recording (source : Source σ) : Source (Recorded σ) :=
  fun request m ↦ Recorded.answer (source request m.1) m.2

/-! ## The record changes nothing -/

namespace Correspondence

/-- Memories that are the same but for a record. -/
def faithful (σ : Type) : Correspondence σ (Recorded σ) where
  time := Eq
  memory m p := m = p.1
  time_refl _ := rfl

theorem sameEvent_refl {τ : Type} (C : Correspondence σ τ) (e : Event) : C.SameEvent e e :=
  ⟨rfl, C.time_refl _, rfl⟩

/-- Where no two times count as the same, an event corresponds to itself alone. -/
theorem SameEvent.eq_of_time {τ : Type} {C : Correspondence σ τ} (hC : C.time = Eq) {e e' : Event}
    (h : C.SameEvent e e') : e' = e := by
  obtain ⟨kind, timestamp, source⟩ := e'
  obtain ⟨rfl, htimestamp, rfl⟩ := h
  rw [hC] at htimestamp
  obtain rfl : e.timestamp = timestamp := htimestamp
  rfl

theorem SameContext.eq_of_time {τ : Type} {C : Correspondence σ τ} (hC : C.time = Eq)
    {c c' : Context} (h : C.SameContext c c') : c' = c := by
  obtain ⟨input, messages, state, now, proceed, metadata⟩ := c'
  obtain ⟨rfl, rfl, rfl, hnow, rfl, rfl⟩ := h
  rw [hC] at hnow
  obtain rfl : c.now = now := hnow
  rfl

theorem SameScene.forget_eq {s : Scene σ} {s' : Scene (Recorded σ)}
    (h : (faithful σ).SameScene s s') : s'.forget = s := by
  have hmemory : s.memory = s'.memory.1 := h.memory
  rw [Scene.forget, h.context.eq_of_time rfl, ← hmemory]

theorem sameContext_refl {τ : Type} (C : Correspondence σ τ) (c : Context) : C.SameContext c c :=
  ⟨rfl, rfl, rfl, C.time_refl _, rfl, rfl⟩

theorem acts_result {α : Type} {R : α → α → Prop} (hR : ∀ a, R a a) (x : α × Scene σ)
    (calls : List NotedCall) : (faithful σ).Acts R x (Recorded.result x calls) :=
  ⟨hR x.1, sameContext_refl _ _, rfl⟩

theorem forall₂_sameEvent_refl {τ : Type} (C : Correspondence σ τ) (es : List Event) :
    List.Forall₂ C.SameEvent es es :=
  List.forall₂_same.2 fun e _ ↦ C.sameEvent_refl e

theorem rel_sameEvent_refl {τ : Type} (C : Correspondence σ τ) (e : Option Event) :
    Option.Rel C.SameEvent e e := by
  cases e with
  | none => exact .none
  | some e => exact .some (C.sameEvent_refl e)

theorem sameSubscriber_recording (number : Nat) (b : Subscriber σ) :
    (faithful σ).SameSubscriber b (b.recording number) where
  onEvent view he hm := by
    rw [he.eq_of_time rfl, show _ = _ from hm]
    exact ⟨rfl, rfl⟩
  onKind kind text view hm := by
    rw [show _ = _ from hm]
    exact ⟨rfl, rfl⟩
  notify notice hm := by
    rw [show _ = _ from hm]
    rfl

/-- Whatever record a stage keeps, it makes the same of what corresponds. -/
theorem sameStage_keeping (g : Stage σ)
    (record : StageCall → Scene (Recorded σ) → List NotedCall) :
    (faithful σ).SameStage g (g.keeping record) where
  admitsRun input hs := by
    rw [← hs.forget_eq]
    exact ⟨rfl, rfl⟩
  onRequest input hs := by
    rw [← hs.forget_eq]
    exact acts_result (fun _ ↦ rfl) _ _
  onResponse result hs := by
    rw [← hs.forget_eq]
    exact acts_result (fun _ ↦ rfl) _ _
  onError failure hs := by
    rw [← hs.forget_eq]
    exact acts_result (fun _ ↦ rfl) _ _
  admitsEvent he hs := by
    rw [← hs.forget_eq, he.eq_of_time rfl]
    exact ⟨rfl, rfl⟩
  beforeEvent he hs := by
    rw [← hs.forget_eq, he.eq_of_time rfl]
    exact acts_result (forall₂_sameEvent_refl _) _ _
  onEvent he hs := by
    rw [← hs.forget_eq, he.eq_of_time rfl]
    exact acts_result (rel_sameEvent_refl _) _ _
  afterEvent he hs := by
    rw [← hs.forget_eq, he.eq_of_time rfl]
    exact acts_result (forall₂_sameEvent_refl _) _ _

theorem sameStage_recording (number : Nat) (g : Stage σ) :
    (faithful σ).SameStage g (g.recording number) :=
  sameStage_keeping g fun call s ↦ s.noted number call

theorem forall₂_values_mapNumbered {α β : Type} {R : α → β → Prop} {f : Nat → α → β}
    (hf : ∀ n a, R a (f n a)) (r : Registry α) :
    List.Forall₂ R r.values (r.mapNumbered f).values := by
  simp only [Registry.values, Registry.mapNumbered, List.map_map, List.forall₂_map_left_iff,
    List.forall₂_map_right_iff]
  exact List.forall₂_same.2 fun entry _ ↦ hf entry.1 entry.2

/-- An agent that keeps a record is the same but for the record. -/
theorem sameAgent_recording (a : Agent σ) : (faithful σ).SameAgent a a.recording where
  endpoint := rfl
  session := rfl
  subscribers := forall₂_values_mapNumbered sameSubscriber_recording _
  stages := forall₂_values_mapNumbered sameStage_recording _
  framer := rfl
  clock := ⟨fun _ ↦ rfl, fun _ ↦ rfl⟩
  memory := rfl

end Correspondence

/-- A run of an agent that keeps a record comes to the same end, and differs in nothing else: not
in the session, not in what is known of the run, not in what is remembered. -/
theorem Agent.recording_complete (a : Agent σ) (request : RunRequest) (pieces : List Bytes) :
    let recorded := (a.recording.begin request).complete pieces
    let plain := (a.begin request).complete pieces
    recorded.1 = plain.1 ∧ recorded.2.run = plain.2.run ∧
      recorded.2.agent.session = plain.2.agent.session ∧
      recorded.2.agent.memory.1 = plain.2.agent.memory := by
  obtain ⟨houtcome, hagent, hrun⟩ :=
    ((Correspondence.sameAgent_recording a).begin request).complete pieces
  exact ⟨houtcome.symm, hrun.symm, hagent.session.symm, hagent.memory.symm⟩

namespace Correspondence

/-- An agent that is the same but for the record receives the same, and its run is the same but for
the record. -/
theorem SameAgent.ask {a : Agent σ} {a' : Agent (Recorded σ)} (h : (faithful σ).SameAgent a a')
    (request : RunRequest) (source : Source σ) :
    (a'.ask request source.recording).1 = (a.ask request source).1 ∧
      (faithful σ).SameRun (a.ask request source).2 (a'.ask request source.recording).2 := by
  have hbegin := h.begin request
  have hmemory : (a.begin request).agent.memory = (a'.begin request).agent.memory.1 :=
    hbegin.agent.memory
  have hrequest : a'.transportRequest request.input = a.transportRequest request.input := by
    simp only [Agent.transportRequest, h.endpoint]
  -- both ask for the same, with the same memory
  have hasked : source.recording (a'.transportRequest request.input)
      (a'.begin request).agent.memory =
        Recorded.answer (source (a.transportRequest request.input) (a.begin request).agent.memory)
          (a'.begin request).agent.memory.2 := by
    rw [hmemory, hrequest]
    rfl
  simp only [Agent.ask, hasked]
  exact ⟨rfl, hbegin.remember rfl⟩

theorem SameAgent.opened {a : Agent σ} {a' : Agent (Recorded σ)} (h : (faithful σ).SameAgent a a')
    (request : RunRequest) (waits : Option Nat) (t : Transport σ) :
    (a'.opened request waits t.recording).1 = (a.opened request waits t).1 ∧
      (faithful σ).SameRun (a.opened request waits t).2
        (a'.opened request waits t.recording).2 := by
  have hsource : t.recording.source waits = (t.source waits).recording := by
    rcases waits with _ | _ | n
    · rfl
    · rfl
    · rfl
  rw [Agent.opened_eq_ask, Agent.opened_eq_ask, hsource]
  exact h.ask request (t.source waits)

/-- A driven run comes to the same end with a record, and leaves the same behind. -/
theorem sameReply_recording_run (a : Agent σ) (params : RunParams) (waits : Option Nat)
    (t : Transport σ) :
    (faithful σ).SameReply (a.run params waits t) (a.recording.run params waits t.recording) := by
  obtain ⟨prepared, b, b', hb, hb', h⟩ := ((sameAgent_recording a).prepare params).exists
  rw [Agent.run_eq_driveOver, Agent.run_eq_driveOver, hb, hb']
  cases prepared with
  | error failure => exact ⟨rfl, h⟩
  | ok request =>
    obtain ⟨hx, hr⟩ := h.opened request waits t
    obtain ⟨houtcome, hrun⟩ := hr.driveOver (b.opened request waits t).1
    dsimp only
    rw [hx]
    exact ⟨houtcome, hrun.agent⟩

end Correspondence

/-! ## Records of corresponding agents -/

namespace Correspondence

/-- The same call of a subscriber but for times. -/
inductive SameSubscriberCall {τ : Type} (C : Correspondence σ τ) :
    SubscriberCall → SubscriberCall → Prop where
  | onEvent {e e' : Event} (view : View) (he : C.SameEvent e e') :
    C.SameSubscriberCall (.onEvent e view) (.onEvent e' view)
  | onKind (kind : EventKind) (text : String) (view : View) :
    C.SameSubscriberCall (.onKind kind text view) (.onKind kind text view)
  | notify (notice : Notice) : C.SameSubscriberCall (.notify notice) (.notify notice)

/-- The same call of a stage but for times. -/
inductive SameStageCall {τ : Type} (C : Correspondence σ τ) : StageCall → StageCall → Prop where
  | admitsRun (input : RunInput) : C.SameStageCall (.admitsRun input) (.admitsRun input)
  | onRequest (input : RunInput) : C.SameStageCall (.onRequest input) (.onRequest input)
  | onResponse (result : RunResult) : C.SameStageCall (.onResponse result) (.onResponse result)
  | onError (failure : Failure) : C.SameStageCall (.onError failure) (.onError failure)
  | admitsEvent {e e' : Event} (he : C.SameEvent e e') :
    C.SameStageCall (.admitsEvent e) (.admitsEvent e')
  | beforeEvent {e e' : Event} (he : C.SameEvent e e') :
    C.SameStageCall (.beforeEvent e) (.beforeEvent e')
  | onEvent {e e' : Event} (he : C.SameEvent e e') : C.SameStageCall (.onEvent e) (.onEvent e')
  | afterEvent {e e' : Event} (he : C.SameEvent e e') :
    C.SameStageCall (.afterEvent e) (.afterEvent e')

/-- The same call but for times. -/
inductive SameCall {τ : Type} (C : Correspondence σ τ) : NotedCall → NotedCall → Prop where
  | subscriber (number : Nat) {call call' : SubscriberCall} (h : C.SameSubscriberCall call call') :
    C.SameCall (.subscriber number call) (.subscriber number call')
  | stage (number : Nat) {call call' : StageCall} {c c' : Context}
      (h : C.SameStageCall call call') (hc : C.SameContext c c') :
    C.SameCall (.stage number call c) (.stage number call' c')

variable {τ : Type} {C : Correspondence σ τ}

/-- Corresponding memories with records of the same calls but for times. -/
def recorded (C : Correspondence σ τ) : Correspondence (Recorded σ) (Recorded τ) where
  time := C.time
  memory p q := C.memory p.1 q.1 ∧ List.Forall₂ C.SameCall p.2 q.2
  time_refl := C.time_refl

/-- Events do not hold memories, so the record changes nothing about which are the same. -/
theorem recorded_sameEvent : C.recorded.SameEvent = C.SameEvent := by
  funext e e'
  exact propext ⟨fun h ↦ ⟨h.kind, h.timestamp, h.source⟩, fun h ↦ ⟨h.kind, h.timestamp, h.source⟩⟩

theorem SameScene.forget {s : Scene (Recorded σ)} {s' : Scene (Recorded τ)}
    (h : C.recorded.SameScene s s') : C.SameScene s.forget s'.forget :=
  ⟨{ h.context with now := h.context.now }, h.memory.1⟩

theorem SameScene.noted {s : Scene (Recorded σ)} {s' : Scene (Recorded τ)} {call call' : StageCall}
    (h : C.recorded.SameScene s s') (number : Nat) (hcall : C.SameStageCall call call') :
    List.Forall₂ C.SameCall (s.noted number call) (s'.noted number call') :=
  List.rel_append h.memory.2 (.cons (.stage number hcall h.forget.context) .nil)

theorem Answers.recorded {α : Type} {x : α × σ} {y : α × τ} {calls calls' : List NotedCall}
    (h : C.Answers x y) (hcalls : List.Forall₂ C.SameCall calls calls') :
    C.recorded.Answers (Recorded.answer x calls) (Recorded.answer y calls') :=
  ⟨h.1, h.2, hcalls⟩

theorem Acts.recorded {α β : Type} {R : α → β → Prop} {x : α × Scene σ} {y : β × Scene τ}
    {calls calls' : List NotedCall} (h : C.Acts R x y)
    (hcalls : List.Forall₂ C.SameCall calls calls') :
    C.recorded.Acts R (Recorded.result x calls) (Recorded.result y calls') :=
  ⟨h.1, { h.2.context with now := h.2.context.now }, h.2.memory, hcalls⟩

theorem SameSubscriber.recording {b : Subscriber σ} {b' : Subscriber τ}
    (h : C.SameSubscriber b b') (number : Nat) :
    C.recorded.SameSubscriber (b.recording number) (b'.recording number) where
  onEvent view he hm := by
    rw [recorded_sameEvent] at he
    exact (h.onEvent view he hm.1).recorded
      (List.rel_append hm.2 (.cons (.subscriber _ (.onEvent view he)) .nil))
  onKind kind text view hm :=
    (h.onKind kind text view hm.1).recorded
      (List.rel_append hm.2 (.cons (.subscriber _ (.onKind kind text view)) .nil))
  notify notice hm :=
    ⟨h.notify notice hm.1, List.rel_append hm.2 (.cons (.subscriber _ (.notify notice)) .nil)⟩

theorem SameStage.recording {g : Stage σ} {g' : Stage τ} (h : C.SameStage g g') (number : Nat) :
    C.recorded.SameStage (g.recording number) (g'.recording number) where
  admitsRun input hs :=
    (h.admitsRun input hs.forget).recorded (hs.noted number (.admitsRun input))
  onRequest input hs :=
    (h.onRequest input hs.forget).recorded (hs.noted number (.onRequest input))
  onResponse result hs :=
    (h.onResponse result hs.forget).recorded (hs.noted number (.onResponse result))
  onError failure hs :=
    (h.onError failure hs.forget).recorded (hs.noted number (.onError failure))
  admitsEvent he hs := by
    rw [recorded_sameEvent] at he
    exact (h.admitsEvent he hs.forget).recorded (hs.noted number (.admitsEvent he))
  beforeEvent he hs := by
    rw [recorded_sameEvent] at he ⊢
    exact (h.beforeEvent he hs.forget).recorded (hs.noted number (.beforeEvent he))
  onEvent he hs := by
    rw [recorded_sameEvent] at he ⊢
    exact (h.onEvent he hs.forget).recorded (hs.noted number (.onEvent he))
  afterEvent he hs := by
    rw [recorded_sameEvent] at he ⊢
    exact (h.afterEvent he hs.forget).recorded (hs.noted number (.afterEvent he))

/-- Entries with the same number, of things that correspond. -/
def SameEntry {α β : Type} (R : α → β → Prop) (x : Nat × α) (y : Nat × β) : Prop :=
  x.1 = y.1 ∧ R x.2 y.2

theorem forall₂_mapNumbered {α β α' β' : Type} {R : α → β → Prop} {R' : α' → β' → Prop}
    {f : Nat → α → α'} {f' : Nat → β → β'} {r : Registry α} {r' : Registry β}
    (hf : ∀ n a b, R a b → R' (f n a) (f' n b))
    (h : List.Forall₂ (SameEntry R) r.entries r'.entries) :
    List.Forall₂ R' (r.mapNumbered f).values (r'.mapNumbered f').values := by
  simp only [Registry.values, Registry.mapNumbered, List.map_map, List.forall₂_map_left_iff,
    List.forall₂_map_right_iff]
  refine h.imp fun x y hxy ↦ ?_
  obtain ⟨hnumber, hR⟩ := hxy
  rw [Function.comp_apply, Function.comp_apply, hnumber]
  exact hf _ _ _ hR

/-- Corresponding agents of which the subscribers and stages have the same numbers keep
corresponding records. -/
theorem SameAgent.recording {a : Agent σ} {a' : Agent τ} (h : C.SameAgent a a')
    (hsubscribers :
      List.Forall₂ (SameEntry C.SameSubscriber) a.subscribers.entries a'.subscribers.entries)
    (hstages : List.Forall₂ (SameEntry C.SameStage) a.stages.entries a'.stages.entries) :
    C.recorded.SameAgent a.recording a'.recording where
  endpoint := h.endpoint
  session := h.session
  subscribers := forall₂_mapNumbered (fun n _ _ hb ↦ hb.recording n) hsubscribers
  stages := forall₂_mapNumbered (fun n _ _ hg ↦ hg.recording n) hstages
  framer := h.framer
  clock := ⟨h.clock.now, h.clock.freshId⟩
  memory := ⟨h.memory, .nil⟩

end Correspondence

end AgentSession
