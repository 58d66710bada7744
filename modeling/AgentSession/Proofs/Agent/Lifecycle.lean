import AgentSession.Proofs.Agent.CallPhases
import AgentSession.Proofs.Agent.Preparation
/-!
# The lifecycle of a run

A run that is refused while it is prepared has no lifecycle: subscribers are told nothing of it.
Every other run is told of when it begins, before anything is processed, and then ends in one of
three ways. It is finished, and subscribers are told the result; or it fails, and they are told the
failure; or a stage suppresses the failure, and they are told nothing.

What is called, and in which order, is read off the record of an agent that keeps one
(`Agent.run_lifecycle`). Up to the point where a run fails or is finished, its payloads are
processed in order; after that point no payload is, and the session stays as it is.
-/

namespace AgentSession

variable {σ : Type}

/-! ## Agents that note their calls -/

namespace Agent

/-- The subscribers and stages of an agent that keeps a record are those of another, noting every
call. -/
structure NotesFor (a : Agent σ) (b : Agent (Recorded σ)) : Prop where
  subscribers : b.subscribers.values = Subscriber.recordings a.subscribers.entries
  stages : b.stages.values = Stage.recordings a.stages.entries

/-- An agent has become another with the same subscribers and stages, and its record has grown by
calls of a kind. -/
structure Noted (P : NotedCall → Prop) (b b' : Agent (Recorded σ)) : Prop where
  subscribers : b'.subscribers = b.subscribers
  stages : b'.stages = b.stages
  memory : Recorded.Noted P b.memory b'.memory

variable {P : NotedCall → Prop} {a : Agent σ} {b b' b'' : Agent (Recorded σ)}

theorem Noted.refl (b : Agent (Recorded σ)) : Noted P b b := ⟨rfl, rfl, .refl _⟩

theorem Noted.trans (h : Noted P b b') (h' : Noted P b' b'') : Noted P b b'' :=
  ⟨h'.subscribers.trans h.subscribers, h'.stages.trans h.stages, h.memory.trans h'.memory⟩

theorem NotesFor.of_noted (h : a.NotesFor b) (hb : Noted P b b') : a.NotesFor b' :=
  ⟨by rw [hb.subscribers, h.subscribers], by rw [hb.stages, h.stages]⟩

theorem notesFor_recording (a : Agent σ) : a.NotesFor a.recording := by
  constructor
  · simp only [recording, Registry.values, Registry.mapNumbered, List.map_map]
    rfl
  · simp only [recording, Registry.values, Registry.mapNumbered, List.map_map]
    rfl

/-! ## Preparing and beginning -/

theorem noted_absorb (h : a.NotesFor b) (params : RunParams) :
    Noted NotedCall.IsPreparing b (b.absorb params) := by
  rw [absorb_eq, h.subscribers]
  refine ⟨rfl, rfl, Subscriber.noted_tellAll (fun notice hnotice n ↦ ?_) b.memory⟩
  obtain ⟨m, -, rfl⟩ := List.mem_map.1 hnotice
  exact .message n m

theorem noted_assemble (b : Agent (Recorded σ)) (params : RunParams) :
    Noted P b (b.assemble params).2 := by
  obtain ⟨ids, hids⟩ := b.exists_assemble params
  rw [hids]
  exact ⟨rfl, rfl, .refl _⟩

theorem noted_prepare (h : a.NotesFor b) (params : RunParams) :
    Noted NotedCall.IsPreparing b (b.prepare params).2 := by
  have hassembled : Noted NotedCall.IsPreparing b ((b.absorb params).assemble params).2 :=
    (noted_absorb h params).trans (noted_assemble _ params)
  obtain ⟨input, b', hb'⟩ : ∃ input b', (b.absorb params).assemble params = (input, b') :=
    ⟨_, _, rfl⟩
  rw [hb'] at hassembled
  have hrequest : Recorded.Noted NotedCall.IsPreparing b'.memory
      (Chain.request b'.stages.values input (b'.scene none [])).2.memory := by
    rw [(h.of_noted hassembled).stages]
    exact Chain.noted_request _ input (b'.scene none [])
  have hresume : Noted NotedCall.IsPreparing b'
      (b'.resume (Chain.request b'.stages.values input (b'.scene none [])).2) :=
    ⟨rfl, rfl, hrequest⟩
  rw [prepare_snd, hb']
  exact hassembled.trans hresume

/-- When a run begins, every subscriber is told so. -/
theorem calls_begin (h : a.NotesFor b) (request : RunRequest) :
    (b.begin request).agent.memory.2 = b.memory.2 ++
      NotedCall.tellings a.subscribers.entries [.runInitialized request.input] := by
  change (Subscriber.tellAll b.subscribers.values [.runInitialized request.input] b.memory).2 = _
  rw [h.subscribers, Subscriber.calls_tellAll]

/-- Asking the transport changes nothing about the calls. -/
theorem calls_opened (h : a.NotesFor b) (request : RunRequest) (waits : Option Nat)
    (t : Transport σ) :
    a.NotesFor (b.opened request waits t.recording).2.agent ∧
      (b.opened request waits t.recording).2.agent.memory.2 = b.memory.2 ++
        NotedCall.tellings a.subscribers.entries [.runInitialized request.input] := by
  have hbegin := calls_begin h request
  rcases waits with _ | _ | n
  · exact ⟨⟨h.subscribers, h.stages⟩, hbegin⟩
  · exact ⟨⟨h.subscribers, h.stages⟩, hbegin⟩
  · exact ⟨⟨h.subscribers, h.stages⟩, hbegin⟩

end Agent

namespace Running

open Agent (NotesFor Noted)

variable {a : Agent σ} {r q : Running (Recorded σ)} {payloads : List String} {payload : String}
  {failure : Failure}

/-! ## Processing -/

theorem noted_handle (h : a.NotesFor r.agent) (e : Event) :
    Noted NotedCall.IsProcessing r.agent (r.handle e).agent := by
  obtain ⟨handled, hhandled⟩ : ∃ handled,
      r.agent.session.handle r.agent.subscribers.values e r.agent.memory = handled := ⟨_, rfl⟩
  have hmemory : Recorded.Noted NotedCall.IsProcessing r.agent.memory handled.memory := by
    rw [← hhandled, h.subscribers]
    exact Session.noted_handle _ _ e _
  cases houtcome : handled.outcome with
  | error failure =>
    simp only [handle, Agent.handle, hhandled, houtcome]
    exact ⟨rfl, rfl, hmemory⟩
  | ok m =>
    have hcommit : Recorded.Noted NotedCall.IsProcessing handled.memory
        (handled.session.commit r.agent.subscribers.values m handled.memory).2 := by
      rw [h.subscribers]
      exact Session.noted_commit _ _ m _
    simp only [handle, Agent.handle, hhandled, houtcome]
    exact ⟨rfl, rfl, hmemory.trans hcommit⟩

theorem noted_takeEvent (h : a.NotesFor r.agent) (e : Event) :
    Noted NotedCall.IsProcessing r.agent (r.takeEvent e).agent := by
  have hfoldl (events : List Event) {r : Running (Recorded σ)} (h : a.NotesFor r.agent) :
      Noted NotedCall.IsProcessing r.agent (events.foldl handle r).agent := by
    induction events generalizing r with
    | nil => exact .refl _
    | cons e events ih =>
      have hfirst := noted_handle h e
      exact hfirst.trans (ih (h.of_noted hfirst))
  have hscene : Recorded.Noted NotedCall.IsProcessing r.agent.memory
      (Chain.event r.agent.stages.values e r.scene).2.memory := by
    rw [h.stages]
    exact Chain.noted_event _ e r.scene
  have hresume : Noted NotedCall.IsProcessing r.agent
      (r.resume (Chain.event r.agent.stages.values e r.scene).2).agent := ⟨rfl, rfl, hscene⟩
  exact hresume.trans (hfoldl _ (h.of_noted hresume))

theorem noted_process (h : a.NotesFor r.agent) (hq : r.process payload = .ok q) :
    Noted NotedCall.IsProcessing r.agent q.agent := by
  rw [process] at hq
  split at hq
  · obtain rfl := Except.ok.inj hq
    exact noted_takeEvent h _
  · split at hq
    · obtain rfl := Except.ok.inj hq
      exact .refl _
    · cases hq

theorem noted_processEach (h : a.NotesFor r.agent) (hq : r.processEach payloads = (none, q)) :
    Noted NotedCall.IsProcessing r.agent q.agent := by
  induction payloads generalizing r with
  | nil =>
    obtain rfl := (Prod.mk.inj hq).2
    exact .refl _
  | cons payload rest ih =>
    rw [processEach] at hq
    cases hfirst : r.process payload with
    | ok r' =>
      rw [hfirst] at hq
      have hnoted := noted_process h hfirst
      exact hnoted.trans (ih (h.of_noted hnoted) hq)
    | error failure =>
      rw [hfirst] at hq
      cases (Prod.mk.inj hq).1

/-! ## Where a run stops -/

/-- A run that is refused a payload has processed those before it. -/
theorem exists_processed_of_refused {σ : Type} {r q : Running σ} {failure : Failure}
    (h : r.processEach payloads = (some failure, q)) :
    ∃ before payload after, payloads = before ++ payload :: after ∧
      r.processEach before = (none, q) ∧ q.process payload = .error failure := by
  induction payloads generalizing r with
  | nil => cases (Prod.mk.inj h).1
  | cons payload rest ih =>
    rw [processEach] at h
    cases hfirst : r.process payload with
    | ok r' =>
      rw [hfirst] at h
      obtain ⟨before, refused, after, rfl, hbefore, hrefused⟩ := ih h
      refine ⟨payload :: before, refused, after, rfl, ?_, hrefused⟩
      rw [processEach, hfirst]
      exact hbefore
    | error failure' =>
      rw [hfirst] at h
      obtain ⟨hfailure, rfl⟩ := Prod.mk.inj h
      obtain rfl := Option.some.inj hfailure
      exact ⟨[], payload, rest, rfl, rfl, hfirst⟩

/-- Why a run fails that has processed some payloads of what it receives: the next one is refused,
or there is no next one and the payloads were cut off. -/
inductive FailsAfter {σ : Type} (q : Running σ) (x : Reception) (failure : Failure) :
    List String → Prop
  | refused {before after : List String} {payload : String}
      (hpayloads : x.payloads = before ++ payload :: after)
      (hrefused : q.process payload = .error failure) : FailsAfter q x failure before
  | cut (hfailure : x.failure = some failure) : FailsAfter q x failure x.payloads

/-- How far a run has come in what it receives, when it comes to its end with an outcome. -/
def StopsAfter {σ : Type} (q : Running σ) (x : Reception) (before : List String) : Outcome → Prop
  | .finished _ => before = x.payloads ∧ x.failure = none
  | .failed _ | .suppressed => ∃ failure, q.FailsAfter x failure before

/-- A run over what it receives is finished after all payloads, or fails after some of them. -/
theorem driveOver_cases {σ : Type} (r : Running σ) (x : Reception) :
    (∃ q, r.processEach x.payloads = (none, q) ∧ x.failure = none ∧ r.driveOver x = q.conclude) ∨
      ∃ before q failure, r.processEach before = (none, q) ∧ FailsAfter q x failure before ∧
        r.driveOver x = q.settle failure := by
  rw [driveOver]
  rcases hpayloads : r.processEach x.payloads with ⟨_ | refused, q⟩
  · cases hfailure : x.failure with
    | none => exact .inl ⟨q, rfl, rfl, rfl⟩
    | some failure => exact .inr ⟨x.payloads, q, failure, hpayloads, .cut hfailure, rfl⟩
  · obtain ⟨before, payload, after, hsplit, hbefore, hrefused⟩ :=
      exists_processed_of_refused hpayloads
    exact .inr ⟨before, q, refused, hbefore, .refused hsplit hrefused, rfl⟩

end Running

/-! ## The end -/

/-- What subscribers are told when a run has come to its end. -/
def Outcome.notices : Outcome → List Notice
  | .finished result => [.runFinalized result]
  | .failed failure => [.runFailed failure]
  | .suppressed => []

/-- The calls of stages with which runs of an agent come to their end. -/
inductive Agent.EndsWith (a : Agent σ) : Outcome → List NotedCall → Prop
  | finished (result : RunResult) {calls : List NotedCall}
      (h : ∀ call ∈ calls, call.IsFinishing) : a.EndsWith (.finished result) calls
  | failed (failure : Failure) {calls : List NotedCall}
      (h : ∀ call ∈ calls, call.IsFailing) : a.EndsWith (.failed failure) calls
  /-- The last stage that is called suppresses the failure that it is shown. -/
  | suppressed {calls : List NotedCall} (h : ∀ call ∈ calls, call.IsFailing) {n : Nat}
      {g : Stage σ} {failure : Failure} {seen : Scene σ} (hg : (n, g) ∈ a.stages.entries)
      (hnone : (g.onError failure seen).1 = none) :
      a.EndsWith .suppressed (calls ++ [.stage n (.onError failure) seen.context])

namespace Running

open Agent (NotesFor Noted)

variable {a : Agent σ} {q : Running (Recorded σ)}

theorem calls_conclude (h : a.NotesFor q.agent) :
    ∃ calls, a.EndsWith q.conclude.1 calls ∧
      q.conclude.2.agent.memory.2 = q.agent.memory.2 ++ calls ++
        NotedCall.tellings a.subscribers.entries q.conclude.1.notices := by
  obtain ⟨result, scene, hresponse, calls, hcalls, hfinishing⟩ : ∃ result scene,
      Chain.response q.agent.stages.values q.result q.scene = (result, scene) ∧
        Recorded.Noted NotedCall.IsFinishing q.agent.memory scene.memory := by
    refine ⟨_, _, rfl, ?_⟩
    rw [h.stages]
    exact Chain.noted_response _ q.result q.scene
  refine ⟨calls, ?_⟩
  rw [conclude, hresponse]
  refine ⟨.finished result hfinishing, ?_⟩
  change (Subscriber.tellAll q.agent.subscribers.values [.runFinalized result] scene.memory).2 = _
  rw [h.subscribers, Subscriber.calls_tellAll, hcalls]
  rfl

theorem calls_settle (h : a.NotesFor q.agent) (failure : Failure) :
    ∃ calls, a.EndsWith (q.settle failure).1 calls ∧
      (q.settle failure).2.agent.memory.2 = q.agent.memory.2 ++ calls ++
        NotedCall.tellings a.subscribers.entries (q.settle failure).1.notices := by
  have hcases := Chain.noted_error a.stages.entries failure q.scene
  rw [← h.stages] at hcases
  rw [settle_eq]
  rcases hcases with ⟨failure', scene, herror, calls, hcalls, hfailing⟩ |
    ⟨scene, m, n, g, failure', seen, herror, ⟨calls, hcalls, hfailing⟩, hg, hnone, hlast⟩
  · rw [herror]
    refine ⟨calls, .failed failure' hfailing, ?_⟩
    change (Subscriber.tellAll q.agent.subscribers.values [.runFailed failure'] scene.memory).2 = _
    rw [h.subscribers, Subscriber.calls_tellAll, hcalls]
    rfl
  · rw [herror]
    refine ⟨_, .suppressed hfailing hg hnone, ?_⟩
    change scene.memory.2 = q.agent.memory.2 ++ (calls ++ [_]) ++ []
    rw [hlast, hcalls, List.append_nil, List.append_assoc]
    rfl

end Running

namespace Agent

variable {a : Agent σ} {b : Agent (Recorded σ)} {r : Running (Recorded σ)}

/-- The lifecycle of a run that begins as `r`, receives `x` and comes to an end with an outcome and
an agent. The calls are those that the record of this agent tells of. -/
structure Lifecycle (a : Agent σ) (input : RunInput) (x : Reception) (r : Running (Recorded σ))
    (outcome : Outcome) (b : Agent (Recorded σ)) : Prop where
  /-- After the calls for preparing the run, and before all others, every subscriber is told that
  the run begins. -/
  begins : ∃ preparing, (∀ call ∈ preparing, call.IsPreparing) ∧
    r.agent.memory.2 =
      preparing ++ NotedCall.tellings a.subscribers.entries [.runInitialized input]
  /-- Payloads are processed in order, all of them unless the run fails. Then the session stays as
  it is, stages are called for the end of the run, and the subscribers are told of it. -/
  ends : ∃ (before : List String) (q : Running (Recorded σ)) (processing ending : List NotedCall),
    r.processEach before = (none, q) ∧
    q.StopsAfter x before outcome ∧
    (∀ call ∈ processing, call.IsProcessing) ∧
    q.agent.memory.2 = r.agent.memory.2 ++ processing ∧
    b.session = q.agent.session ∧
    a.EndsWith outcome ending ∧
    b.memory.2 = q.agent.memory.2 ++ ending ++
      NotedCall.tellings a.subscribers.entries outcome.notices
  /-- The subscribers are told of the run twice at most: that it begins, and how it ends. -/
  told : b.memory.2.filter NotedCall.isLifecycle =
    NotedCall.tellings a.subscribers.entries (.runInitialized input :: outcome.notices)

theorem EndsWith.isLifecycle {outcome : Outcome} {calls : List NotedCall}
    (h : a.EndsWith outcome calls) : ∀ call ∈ calls, call.isLifecycle = false := by
  cases h with
  | finished result h => exact fun call hcall ↦ (h call hcall).isLifecycle
  | failed failure h => exact fun call hcall ↦ (h call hcall).isLifecycle
  | suppressed h hg hnone =>
    exact List.forall_mem_append.2
      ⟨fun call hcall ↦ (h call hcall).isLifecycle, List.forall_mem_singleton.2 rfl⟩

theorem isLifecycle_tellings {notices : List Notice}
    (h : ∀ notice ∈ notices, notice.isLifecycle = true) (bs : List (Nat × Subscriber σ)) :
    ∀ call ∈ NotedCall.tellings bs notices, call.isLifecycle = true := by
  intro call hcall
  obtain ⟨notice, hnotice, hcall⟩ := List.mem_flatMap.1 hcall
  obtain ⟨b, -, rfl⟩ := List.mem_map.1 hcall
  exact h notice hnotice

/-- Which calls tell of the run, among all calls. -/
theorem filter_isLifecycle {bs : List (Nat × Subscriber σ)} {input : RunInput} {outcome : Outcome}
    {preparing processing ending : List NotedCall}
    (hpreparing : ∀ call ∈ preparing, call.isLifecycle = false)
    (hprocessing : ∀ call ∈ processing, call.isLifecycle = false)
    (hending : ∀ call ∈ ending, call.isLifecycle = false) :
    (preparing ++ NotedCall.tellings bs [.runInitialized input] ++ processing ++ ending ++
        NotedCall.tellings bs outcome.notices).filter NotedCall.isLifecycle =
      NotedCall.tellings bs (.runInitialized input :: outcome.notices) := by
  have hnone {calls : List NotedCall} (h : ∀ call ∈ calls, call.isLifecycle = false) :
      calls.filter NotedCall.isLifecycle = [] :=
    List.filter_eq_nil_iff.2 fun call hcall ↦ Bool.eq_false_iff.1 (h call hcall)
  have hall {notices : List Notice} (h : ∀ notice ∈ notices, notice.isLifecycle = true) :
      (NotedCall.tellings bs notices).filter NotedCall.isLifecycle =
        NotedCall.tellings bs notices :=
    List.filter_eq_self.2 (isLifecycle_tellings h bs)
  have houtcome : ∀ notice ∈ outcome.notices, notice.isLifecycle = true := by
    cases outcome with
    | finished result => exact List.forall_mem_singleton.2 rfl
    | failed failure => exact List.forall_mem_singleton.2 rfl
    | suppressed => exact List.forall_mem_nil _
  have hbegins : ∀ notice ∈ [Notice.runInitialized input], notice.isLifecycle = true :=
    List.forall_mem_singleton.2 rfl
  have hsplit : NotedCall.tellings bs (.runInitialized input :: outcome.notices) =
      NotedCall.tellings bs [.runInitialized input] ++ NotedCall.tellings bs outcome.notices := by
    simp only [NotedCall.tellings, List.flatMap_cons, List.flatMap_nil, List.append_nil]
  simp only [List.filter_append, hnone hpreparing, hnone hprocessing, hnone hending, hall hbegins,
    hall houtcome, List.nil_append, List.append_nil]
  exact hsplit.symm

section Ending

variable {input : RunInput} {preparing : List NotedCall} {x : Reception}

/-- A run that has begun and processed some payloads has a lifecycle if the session stays as it is
from then on, stages are called for its end, and subscribers are told of it. -/
theorem lifecycle_of_processed {before : List String} {q : Running (Recorded σ)}
    {outcome : Outcome} (h : a.NotesFor r.agent)
    (hpreparing : ∀ call ∈ preparing, call.IsPreparing)
    (hbegins : r.agent.memory.2 =
      preparing ++ NotedCall.tellings a.subscribers.entries [.runInitialized input])
    (hq : r.processEach before = (none, q)) (hstops : q.StopsAfter x before outcome)
    (hsession : b.session = q.agent.session)
    (hend : ∃ calls, a.EndsWith outcome calls ∧ b.memory.2 = q.agent.memory.2 ++ calls ++
      NotedCall.tellings a.subscribers.entries outcome.notices) :
    a.Lifecycle input x r outcome b := by
  obtain ⟨processing, hmemory, hprocessing⟩ := (Running.noted_processEach h hq).memory
  obtain ⟨ending, hending, hcalls⟩ := hend
  refine ⟨⟨preparing, hpreparing, hbegins⟩, ⟨before, q, processing, ending, hq, hstops,
    hprocessing, hmemory, hsession, hending, hcalls⟩, ?_⟩
  rw [hcalls, hmemory, hbegins]
  exact filter_isLifecycle (fun call hcall ↦ (hpreparing call hcall).isLifecycle)
    (fun call hcall ↦ (hprocessing call hcall).isLifecycle) hending.isLifecycle

theorem lifecycle_driveOver (h : a.NotesFor r.agent)
    (hpreparing : ∀ call ∈ preparing, call.IsPreparing)
    (hbegins : r.agent.memory.2 =
      preparing ++ NotedCall.tellings a.subscribers.entries [.runInitialized input])
    (x : Reception) : a.Lifecycle input x r (r.driveOver x).1 (r.driveOver x).2.agent := by
  rcases r.driveOver_cases x with ⟨q, hq, hfailure, hover⟩ | ⟨before, q, failure, hq, hfails, hover⟩
  · have hnotes := h.of_noted (Running.noted_processEach h hq)
    rw [hover]
    exact lifecycle_of_processed h hpreparing hbegins hq ⟨rfl, hfailure⟩ q.conclude_session
      (Running.calls_conclude hnotes)
  · have hnotes := h.of_noted (Running.noted_processEach h hq)
    have hstops : q.StopsAfter x before (q.settle failure).1 := by
      rcases q.settle_outcome failure with houtcome | ⟨left, houtcome⟩
      · rw [houtcome]
        exact ⟨failure, hfails⟩
      · rw [houtcome]
        exact ⟨failure, hfails⟩
    rw [hover]
    exact lifecycle_of_processed h hpreparing hbegins hq hstops (q.settle_session failure)
      (Running.calls_settle hnotes failure)

end Ending

/-- **The lifecycle of a run.** Let an agent with arbitrary subscribers and stages prepare a run,
and let a transport be asked, with the run cancelled at any time or never. That calls are recorded
changes nothing about the run. A run over pieces that the caller has is one of these
(`Agent.runStream_eq_run`).

If the run is refused while it is prepared, no more is called than to prepare it, and it fails as it
was refused. Otherwise it begins and comes to its end as told in `Agent.Lifecycle`. -/
theorem run_lifecycle (a : Agent σ) (params : RunParams) (waits : Option Nat) (t : Transport σ) :
    let plain := a.run params waits t
    let recorded := a.recording.run params waits t.recording
    (recorded.1 = plain.1 ∧ recorded.2.session = plain.2.session ∧
      recorded.2.memory.1 = plain.2.memory) ∧
    match a.recording.prepare params with
    | (.error failure, b) =>
      recorded = (.failed failure, b) ∧ ∀ call ∈ b.memory.2, call.IsPreparing
    | (.ok request, b) =>
      let (x, r) := b.opened request waits t.recording
      a.Lifecycle request.input x r recorded.1 recorded.2 := by
  intro plain recorded
  obtain ⟨houtcome, hagent⟩ := Correspondence.sameReply_recording_run a params waits t
  refine ⟨⟨houtcome.symm, hagent.session.symm, hagent.memory.symm⟩, ?_⟩
  have hnotes := a.notesFor_recording
  have hprepare := noted_prepare hnotes params
  have hrun : recorded = _ := a.recording.run_eq_driveOver params waits t.recording
  obtain ⟨prepared, b, hb⟩ : ∃ prepared b, a.recording.prepare params = (prepared, b) := ⟨_, _, rfl⟩
  rw [hb] at hprepare hrun ⊢
  obtain ⟨calls, hcalls, hpreparing⟩ := hprepare.memory
  have hrecord : b.memory.2 = calls := hcalls
  cases prepared with
  | error failure =>
    rw [← hrecord] at hpreparing
    exact ⟨hrun, hpreparing⟩
  | ok request =>
    obtain ⟨hopened, hbegins⟩ := calls_opened (hnotes.of_noted hprepare) request waits t
    rw [hrecord] at hbegins
    rw [hrun]
    exact lifecycle_driveOver hopened hpreparing hbegins _

end Agent

end AgentSession
