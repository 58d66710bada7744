import AgentSession.Proofs.Agent.Reception
import AgentSession.Proofs.Session.Operation
/-!
# What a run does to its session

To its session a run is a list of operations: every event that comes out of a payload is handled,
and what the subscribers ask for is committed (`Running.operations`). Nothing else that a run does
between its beginning and its end reaches the session (`Running.session_driveOver`), so whatever is
known of sessions on which operations are performed is known of runs.
-/

namespace AgentSession

variable {σ : Type}

namespace Running

/-! ## Operations of a run -/

/-- What an event does to the session: it is handled, and unless that fails, what the subscribers
ask for is committed. -/
def handleOperations (r : Running σ) (e : Event) : List (Operation σ) :=
  .handle r.agent.subscribers.values e r.agent.memory ::
    match (r.agent.session.handle r.agent.subscribers.values e r.agent.memory).outcome with
    | .error _ => []
    | .ok m => [.commit m]

/-- What some events do to the session, one after the other. -/
def handleAllOperations (r : Running σ) : List Event → List (Operation σ)
  | [] => []
  | e :: events => r.handleOperations e ++ (r.handle e).handleAllOperations events

/-- What a payload does to the session: nothing if it is no event, and otherwise what the events do
that the stages make of it. -/
def processOperations (r : Running σ) (payload : String) : List (Operation σ) :=
  match decode r.agent.clock.present payload with
  | .error _ => []
  | .ok e =>
    let (events, scene) := Chain.event r.agent.stages.values e r.scene
    (r.resume scene).handleAllOperations events

/-- What some payloads do to the session, up to the first that is refused. -/
def operations (r : Running σ) : List String → List (Operation σ)
  | [] => []
  | payload :: rest =>
    match r.process payload with
    | .ok q => r.processOperations payload ++ q.operations rest
    | .error _ => []

/-! ## The session afterwards -/

theorem session_handle (r : Running σ) (e : Event) :
    (r.handle e).agent.session = r.agent.session.performAll (r.handleOperations e) := by
  obtain ⟨handled, hhandled⟩ : ∃ handled,
      r.agent.session.handle r.agent.subscribers.values e r.agent.memory = handled := ⟨_, rfl⟩
  have hperform : r.agent.session.perform
      (.handle r.agent.subscribers.values e r.agent.memory) = handled.session :=
    congrArg Handled.session hhandled
  cases houtcome : handled.outcome with
  | error failure =>
    simp only [handle, Agent.handle, handleOperations, hhandled, houtcome]
    exact hperform.symm
  | ok m =>
    simp only [handle, Agent.handle, handleOperations, hhandled, houtcome]
    change handled.session.mutate m = (r.agent.session.perform _).mutate m
    rw [hperform]

theorem session_foldl_handle (r : Running σ) (events : List Event) :
    (events.foldl handle r).agent.session =
      r.agent.session.performAll (r.handleAllOperations events) := by
  induction events generalizing r with
  | nil => rfl
  | cons e events ih =>
    rw [List.foldl_cons, ih, session_handle, handleAllOperations, Session.performAll_append]

theorem session_process {r q : Running σ} {payload : String} (h : r.process payload = .ok q) :
    q.agent.session = r.agent.session.performAll (r.processOperations payload) := by
  rw [process] at h
  rw [processOperations]
  cases hdecode : decode r.agent.clock.present payload with
  | ok e =>
    rw [hdecode] at h
    obtain rfl := Except.ok.inj h
    exact session_foldl_handle _ _
  | error failure =>
    rw [hdecode] at h
    cases hpolicy : r.agent.endpoint.policy with
    | skip =>
      rw [hpolicy] at h
      obtain rfl := Except.ok.inj h
      rfl
    | abort =>
      rw [hpolicy] at h
      cases h

theorem session_processEach (r : Running σ) (payloads : List String) :
    (r.processEach payloads).2.agent.session =
      r.agent.session.performAll (r.operations payloads) := by
  induction payloads generalizing r with
  | nil => rfl
  | cons payload rest ih =>
    rw [processEach, operations]
    cases h : r.process payload with
    | ok q =>
      have hrest : (q.processEach rest).2.agent.session =
          q.agent.session.performAll (q.operations rest) := ih q
      dsimp only
      rw [hrest, session_process h, Session.performAll_append]
    | error failure => rfl

/-- **A run is its operations.** The end of a run does nothing to the session. -/
theorem session_driveOver (r : Running σ) (x : Reception) :
    (r.driveOver x).2.agent.session = r.agent.session.performAll (r.operations x.payloads) := by
  rw [← session_processEach, driveOver]
  rcases r.processEach x.payloads with ⟨_ | refused, q⟩
  · cases x.failure with
    | none => exact q.conclude_session
    | some failure => exact q.settle_session failure
  · exact q.settle_session refused

end Running

end AgentSession
