import AgentSession.Proofs.Agent.Record
import AgentSession.Proofs.Middleware.Builtin
/-!
# What is observed of a run

To compare runs of agents with different stages, what is observed of them must not speak of stages:
an `Observation` is how a run ends, the session that it leaves, how many events were handled, and
what the subscribers were called with. The calls are those of an agent that notes the calls of its
subscribers and otherwise does the same (`Agent.noting`, `Agent.exists_observe`).

What a run receives comes from a `Source`, which is a transport together with the framing of its
answers. Every transport is one (`Agent.opened_eq_ask`), so a statement about every source is one
about every stream of payloads that a transport may deliver.
-/

namespace AgentSession

variable {σ : Type}

/-! ## Noting the calls of subscribers -/

/-- The stage beside a record, which it leaves as it is. -/
def Stage.beside (g : Stage σ) : Stage (Recorded σ) := g.keeping fun _ s ↦ s.memory.2

namespace Agent

/-- The agent, keeping a record of the calls of its subscribers from now on. -/
def noting (a : Agent σ) : Agent (Recorded σ) :=
  { endpoint := a.endpoint
    session := a.session
    subscribers := a.subscribers.mapNumbered Subscriber.recording
    stages := a.stages.mapNumbered fun _ ↦ Stage.beside
    framer := a.framer
    clock := a.clock
    memory := (a.memory, []) }

end Agent

namespace Correspondence

/-- An agent that notes the calls of its subscribers is the same but for the record. -/
theorem sameAgent_noting (a : Agent σ) : (faithful σ).SameAgent a a.noting where
  endpoint := rfl
  session := rfl
  subscribers := forall₂_values_mapNumbered sameSubscriber_recording _
  stages := forall₂_values_mapNumbered (fun _ g ↦ sameStage_keeping g _) _
  framer := rfl
  clock := ⟨fun _ ↦ rfl, fun _ ↦ rfl⟩
  memory := rfl

end Correspondence

/-! ## Built-in stages beside a record -/

def Slot.beside {τ : Type} (slot : Slot σ τ) : Slot (Recorded σ) τ where
  get m := slot.get m.1
  put part m := (slot.put part m.1, m.2)

namespace Budget

def beside (b : Budget σ) : Budget (Recorded σ) := { b with counts := b.counts.beside }

theorem forgetAll_beside (runId : String) (bs : List (Budget σ)) (m : Recorded σ) :
    forgetAll runId (bs.map beside) m = (forgetAll runId bs m.1, m.2) := by
  induction bs with
  | nil => rfl
  | cons b bs ih =>
    unfold forgetAll at ih ⊢
    rw [List.map_cons, List.foldr_cons, ih]
    rfl

theorem chargeAll_beside (failure : Failure) (runId : String) (bs : List (Budget σ))
    (m : Recorded σ) :
    chargeAll failure runId (bs.map beside) m =
      ((chargeAll failure runId bs m.1).1, (chargeAll failure runId bs m.1).2, m.2) := by
  induction bs with
  | nil => rfl
  | cons b bs ih =>
    unfold chargeAll at ih ⊢
    rw [List.map_cons, List.foldr_cons, List.foldr_cons, ih]
    rcases bs.foldr (charge failure runId) (false, m.1) with ⟨_ | _, memory⟩
    · simp only [charge]
      cases failure.isRetryable with
      | false => rfl
      | true => rfl
    · rfl

end Budget

namespace Builtin

def beside : Builtin σ → Builtin (Recorded σ)
  | logging => logging
  | deadline ms => deadline ms
  | filter f => filter f
  | retry b => retry b.beside

theorem stage_beside (g : Builtin σ) : g.beside.stage = g.stage.beside := by
  cases g with
  | logging | deadline ms | filter f => rfl
  | retry b =>
    simp only [beside, stage, Retry.stage, Stage.beside, Stage.keeping, Stage.mk.injEq]
    refine ⟨rfl, rfl, rfl, ?_, rfl, rfl, rfl, rfl⟩
    funext failure s
    cases failure.isRetryable with
    | false => rfl
    | true =>
      -- both count in the same slot, and the budget covers the failure or does not
      simp only [if_true, Budget.beside, Slot.beside, Scene.forget]
      rcases b.retry.count ((s.context.input.map RunInput.runId).getD "")
        (b.counts.get s.memory.1) with ⟨_ | attempt, counts⟩
      · rfl
      · rfl

theorem anyBlocks_beside (chain : List (Builtin σ)) (t : EventType) :
    anyBlocks (chain.map beside) t = anyBlocks chain t := by
  rw [anyBlocks, anyBlocks, List.any_map]
  refine congrArg chain.any (funext fun g ↦ ?_)
  cases g with
  | logging | deadline ms | filter f | retry b => rfl

theorem budgets_beside (chain : List (Builtin σ)) :
    budgets (chain.map beside) = (budgets chain).map Budget.beside := by
  induction chain with
  | nil => rfl
  | cons g chain ih =>
    cases g with
    | logging | deadline ms | filter f => exact ih
    | retry b => exact congrArg (b.beside :: ·) ih

end Builtin

/-! ## Observations -/

/-- What is observed of a run that was driven to its end. -/
structure Observation where
  outcome : Outcome
  session : Session
  eventsProcessed : Nat
  /-- What the subscribers were called with, from preparing the run to its end. -/
  calls : List NotedCall

def Observation.ofEnd (x : Outcome × Running (Recorded σ)) : Observation :=
  ⟨x.1, x.2.agent.session, x.2.run.eventsProcessed, x.2.agent.memory.2⟩

namespace Agent

/-- What is observed when an agent prepares a run and drives it over what it then receives; nothing
if a stage halts the request. -/
def observe (a : Agent σ) (params : RunParams) (source : Source σ) : Option Observation :=
  match a.noting.prepare params with
  | (.error _, _) => none
  | (.ok request, b) =>
    let (x, r) := b.ask request source.recording
    some (.ofEnd (r.driveOver x))

/-- What is observed is what the agent itself does. -/
theorem exists_observe (a : Agent σ) (params : RunParams) (source : Source σ)
    {request : RunRequest} {b : Agent σ} (h : a.prepare params = (.ok request, b)) {x : Reception}
    {r : Running σ} (hask : b.ask request source = (x, r)) :
    ∃ calls, a.observe params source =
      some ⟨(r.driveOver x).1, (r.driveOver x).2.agent.session,
        (r.driveOver x).2.run.eventsProcessed, calls⟩ := by
  obtain ⟨prepared, c, b', hc, hb', hsame⟩ :=
    ((Correspondence.sameAgent_noting a).prepare params).exists
  obtain ⟨rfl, rfl⟩ := Prod.mk.inj (h.symm.trans hc)
  obtain ⟨hx, hr⟩ := hsame.ask request source
  rw [hask] at hx hr
  obtain ⟨outcome, q, q', hq, hq', hsame⟩ := (hr.driveOver x).exists
  refine ⟨q'.agent.memory.2, ?_⟩
  rw [observe, hb']
  dsimp only at hq ⊢
  rw [hx, hq', hq, Observation.ofEnd, hsame.agent.session, hsame.run]

end Agent

end AgentSession
