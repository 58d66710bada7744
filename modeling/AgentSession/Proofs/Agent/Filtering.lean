import AgentSession.Event.Sample
import AgentSession.Proofs.Agent.Observation
import AgentSession.Proofs.Agent.Operations
import AgentSession.Proofs.Agent.Preparation
import AgentSession.Proofs.Agent.Reading
/-!
# Filtered runs

Where an agent has no other stages than those that come with the library, a run handles exactly the
events of the stream that no filter blocks (`Running.operations_builtin`). Of a run all the rest
depends on these events, on the failure that ends it, and on what the retry budgets make of that
failure (`Observation.ofEnd_driveOver`).

So filters might as well be applied to the stream, and the order of the stages does not matter
(`Agent.filters_exact`). Events that cannot be handled are no exception, as they are handled, or
fail, in the same way. Notes differ, but only the caller sees them.

An event takes the time and the identifiers that it lacks from the moment at which it is read, and
every event takes a moment, whether or not it is blocked. Two streams are therefore compared on
clocks on which the same events are read.
-/

namespace AgentSession

variable {σ : Type}

namespace Running

/-! ## Handling events -/

/-- The run in progress with other stages, another clock and other notes. -/
def refit (r : Running σ) (stages : Registry (Stage σ)) (clock : Clock) (metadata : Dict String) :
    Running σ :=
  { agent := { r.agent with stages, clock }, run := { r.run with metadata } }

/-- Handling events looks neither at stages nor at the clock nor at notes. -/
theorem handle_refit (r : Running σ) (stages : Registry (Stage σ)) (clock : Clock)
    (metadata : Dict String) (e : Event) :
    (r.refit stages clock metadata).handle e = (r.handle e).refit stages clock metadata := by
  unfold handle Agent.handle refit
  dsimp only
  cases (r.agent.session.handle r.agent.subscribers.values e r.agent.memory).outcome with
  | error failure => rfl
  | ok m => rfl

theorem foldl_handle_refit (r : Running σ) (stages : Registry (Stage σ)) (clock : Clock)
    (metadata : Dict String) (events : List Event) :
    events.foldl handle (r.refit stages clock metadata) =
      (events.foldl handle r).refit stages clock metadata := by
  induction events generalizing r with
  | nil => rfl
  | cons e events ih => rw [List.foldl_cons, handle_refit, ih, List.foldl_cons]

theorem foldl_handle_endpoint (r : Running σ) (events : List Event) :
    (events.foldl handle r).agent.endpoint = r.agent.endpoint := by
  induction events generalizing r with
  | nil => rfl
  | cons e events ih =>
    have hself : r.handle e = (r.handle e).equip r.agent.endpoint r.agent.framer :=
      r.handle_equip r.agent.endpoint r.agent.framer e
    rw [List.foldl_cons, ih, hself]
    rfl

theorem process_of_error_skip {r : Running σ} {payload : String} {failure : Failure}
    (hdecode : decode r.agent.clock.present payload = .error failure)
    (hpolicy : r.agent.endpoint.policy = .skip) : r.process payload = .ok r := by
  rw [process, hdecode, hpolicy]

theorem process_of_error_abort {r : Running σ} {payload : String} {failure : Failure}
    (hdecode : decode r.agent.clock.present payload = .error failure)
    (hpolicy : r.agent.endpoint.policy = .abort) : r.process payload = .error failure := by
  rw [process, hdecode, hpolicy]

end Running

/-- The event that an operation handles, if it handles one. -/
def Operation.event? : Operation σ → Option Event
  | .handle _ e _ => some e
  | _ => none

namespace Running

section Builtin

variable {r : Running σ} {chain : List (Builtin σ)}

/-- What a chain of built-in stages lets pass of some events. -/
def kept (chain : List (Builtin σ)) (events : List Event) : List Event :=
  events.filter fun e ↦ !Builtin.anyBlocks chain e.type

theorem event_eq_kept (chain : List (Builtin σ)) (e : Event) (s : Scene σ) :
    Chain.event (chain.map Builtin.stage) e s = (kept chain [e], s) := by
  rw [Chain.event_builtin]
  cases hblocks : Builtin.anyBlocks chain e.type with
  | true =>
    rw [kept, List.filter_cons_of_neg (by rw [hblocks]; nofun)]
    rfl
  | false =>
    rw [kept, List.filter_cons_of_pos (by rw [hblocks]; rfl)]
    rfl

/-- An event that is not blocked is handled as it is, and one that is blocked does nothing. -/
theorem process_of_ok (h : r.agent.stages.values = chain.map Builtin.stage) {payload : String}
    {e : Event} (hdecode : decode r.agent.clock.present payload = .ok e) :
    r.process payload =
      .ok (((kept chain [e]).foldl handle r).refit r.agent.stages r.agent.clock.tick
        r.run.metadata) := by
  rw [process, hdecode, ← foldl_handle_refit]
  dsimp only
  rw [takeEvent, h, event_eq_kept]
  rfl

theorem kept_beside (chain : List (Builtin σ)) (events : List Event) :
    kept (chain.map Builtin.beside) events = kept chain events := by
  simp only [kept, Builtin.anyBlocks_beside]

theorem kept_withoutFilters (chain : List (Builtin σ)) (events : List Event) :
    kept (chain.filter fun g ↦ !g.isFilter) events = events :=
  List.filter_eq_self.2 fun e _ ↦ by rw [Builtin.anyBlocks_withoutFilters]; rfl

theorem kept_cons (chain : List (Builtin σ)) (e : Event) (events : List Event) :
    kept chain (e :: events) = kept chain [e] ++ kept chain events :=
  List.filter_append [e] events

/-- The events that a run reads from some payloads. -/
def events (r : Running σ) (payloads : List String) : List Event :=
  (read r.agent.endpoint.policy r.agent.clock payloads).2

/-- The payloads that a run processes are read, and the events that are kept are handled. -/
theorem processEach_builtin (h : r.agent.stages.values = chain.map Builtin.stage)
    (payloads : List String) :
    ∃ clock, r.processEach payloads =
      ((read r.agent.endpoint.policy r.agent.clock payloads).1,
        ((kept chain (read r.agent.endpoint.policy r.agent.clock payloads).2).foldl handle r).refit
          r.agent.stages clock r.run.metadata) := by
  induction payloads generalizing r with
  | nil => exact ⟨r.agent.clock, rfl⟩
  | cons payload rest ih =>
    cases hdecode : decode r.agent.clock.present payload with
    | ok e =>
      obtain ⟨q, hq⟩ : ∃ q, q = (kept chain [e]).foldl handle r := ⟨_, rfl⟩
      have hpolicy : q.agent.endpoint = r.agent.endpoint := by rw [hq, foldl_handle_endpoint]
      obtain ⟨clock, hrest⟩ := ih (r := q.refit r.agent.stages r.agent.clock.tick r.run.metadata) h
      refine ⟨clock, ?_⟩
      rw [processEach, process_of_ok h hdecode, read_of_ok hdecode, ← hq]
      dsimp only
      rw [kept_cons, List.foldl_append, ← hq, ← hpolicy]
      refine hrest.trans ?_
      rw [foldl_handle_refit]
      rfl
    | error failure =>
      cases hpolicy : r.agent.endpoint.policy with
      | skip =>
        rw [processEach, process_of_error_skip hdecode hpolicy, read_skip_of_error hdecode,
          ← hpolicy]
        exact ih h
      | abort =>
        rw [processEach, process_of_error_abort hdecode hpolicy, read_abort_of_error hdecode]
        exact ⟨r.agent.clock, rfl⟩

theorem filterMap_event?_handleOperations (r : Running σ) (e : Event) :
    (r.handleOperations e).filterMap Operation.event? = [e] := by
  rw [handleOperations]
  cases (r.agent.session.handle r.agent.subscribers.values e r.agent.memory).outcome with
  | error failure => rfl
  | ok m => rfl

theorem filterMap_event?_handleAllOperations (r : Running σ) (events : List Event) :
    (r.handleAllOperations events).filterMap Operation.event? = events := by
  induction events generalizing r with
  | nil => rfl
  | cons e events ih =>
    rw [handleAllOperations, List.filterMap_append, filterMap_event?_handleOperations, ih]
    rfl

/-- **Filters are exact.** The events that a run handles are those of the payloads that are not
blocked, in the order in which they arrive, as they are. -/
theorem operations_builtin (h : r.agent.stages.values = chain.map Builtin.stage)
    (payloads : List String) :
    (r.operations payloads).filterMap Operation.event? = kept chain (r.events payloads) := by
  unfold events
  induction payloads generalizing r with
  | nil => rfl
  | cons payload rest ih =>
    cases hdecode : decode r.agent.clock.present payload with
    | ok e =>
      obtain ⟨q, hq⟩ : ∃ q, q = (kept chain [e]).foldl handle r := ⟨_, rfl⟩
      have hpolicy : q.agent.endpoint = r.agent.endpoint := by rw [hq, foldl_handle_endpoint]
      have hfirst : (r.processOperations payload).filterMap Operation.event? = kept chain [e] := by
        rw [processOperations, hdecode, h]
        dsimp only
        rw [event_eq_kept, filterMap_event?_handleAllOperations]
      rw [operations, process_of_ok h hdecode, read_of_ok hdecode, ← hq]
      dsimp only
      rw [kept_cons, List.filterMap_append, hfirst, ← hpolicy]
      exact congrArg _ (ih h)
    | error failure =>
      cases hpolicy : r.agent.endpoint.policy with
      | skip =>
        have hnothing : r.processOperations payload = [] := by rw [processOperations, hdecode]
        rw [operations, process_of_error_skip hdecode hpolicy, read_skip_of_error hdecode,
          ← hpolicy]
        dsimp only
        rw [hnothing, List.nil_append]
        exact ih h
      | abort =>
        rw [operations, process_of_error_abort hdecode hpolicy, read_abort_of_error hdecode]
        rfl

end Builtin

end Running

/-! ## The end of a run -/

namespace Observation

/-- What is observed at the end of a run that fails or is finished, if its failure is charged to
some budgets and nothing else becomes of its failure or its result. -/
def ofBudgets (bs : List (Budget σ)) (r : Running (Recorded σ)) (failure : Option Failure) :
    Observation :=
  let tell (notice : Notice) (m : σ) : List NotedCall :=
    (Subscriber.tell r.agent.subscribers.values notice (m, r.agent.memory.2)).2
  let runId := r.run.input.runId
  let (outcome, calls) : Outcome × List NotedCall :=
    match failure with
    | none =>
      (.finished r.result,
        tell (.runFinalized r.result) (Budget.forgetAll runId bs r.agent.memory.1))
    | some failure =>
      match Budget.uncovered (Budget.chargeAll failure runId bs r.agent.memory.1) with
      | none => (.suppressed, r.agent.memory.2)
      | some m => (.failed failure, tell (.runFailed failure) m)
  ⟨outcome, r.agent.session, r.run.eventsProcessed, calls⟩

variable {chain : List (Builtin σ)} {r : Running (Recorded σ)}

theorem ofEnd_conclude (h : r.agent.stages.values = (chain.map Builtin.beside).map Builtin.stage) :
    ofEnd r.conclude = ofBudgets (Builtin.budgets chain) r none := by
  rw [Running.conclude, h, Chain.response_builtin, Builtin.budgets_beside, Budget.forgetAll_beside]
  rfl

theorem ofEnd_settle (h : r.agent.stages.values = (chain.map Builtin.beside).map Builtin.stage)
    (failure : Failure) :
    ofEnd (r.settle failure) = ofBudgets (Builtin.budgets chain) r (some failure) := by
  obtain ⟨metadata, herror⟩ := Chain.error_builtin (chain.map Builtin.beside) failure r.scene
  have hrunId : r.scene.runId = r.run.input.runId := rfl
  have hmemory : r.scene.memory = r.agent.memory := rfl
  rw [Running.settle_eq, h, herror, Builtin.budgets_beside, Budget.chargeAll_beside, hrunId,
    hmemory, ofBudgets]
  rcases Budget.chargeAll failure r.run.input.runId (Builtin.budgets chain) r.agent.memory.1 with
    ⟨_ | _, m⟩
  · rfl
  · rfl

/-- A run through built-in stages ends as its events, its failure and its budgets make it. -/
theorem ofEnd_driveOver (h : r.agent.stages.values = (chain.map Builtin.beside).map Builtin.stage)
    (x : Reception) :
    ofEnd (r.driveOver x) =
      let (refused, events) := Running.read r.agent.endpoint.policy r.agent.clock x.payloads
      ofBudgets (Builtin.budgets chain) ((Running.kept chain events).foldl Running.handle r)
        (refused.or x.failure) := by
  obtain ⟨clock, hprocess⟩ := Running.processEach_builtin h x.payloads
  rw [Running.driveOver, hprocess, Running.kept_beside]
  obtain ⟨refused, events, hread⟩ : ∃ refused events,
      Running.read r.agent.endpoint.policy r.agent.clock x.payloads = (refused, events) :=
    ⟨_, _, rfl⟩
  rw [hread]
  -- what is observed at the end does not depend on the clock
  have hstages : (((Running.kept chain events).foldl Running.handle r).refit r.agent.stages clock
      r.run.metadata).agent.stages.values = (chain.map Builtin.beside).map Builtin.stage := h
  cases refused with
  | some failure => exact ofEnd_settle hstages failure
  | none =>
    cases x.failure with
    | some failure => exact ofEnd_settle hstages failure
    | none => exact ofEnd_conclude hstages

theorem ofBudgets_refit (bs : List (Budget σ)) (r : Running (Recorded σ))
    (stages : Registry (Stage (Recorded σ))) (clock : Clock) (metadata : Dict String)
    (failure : Option Failure) :
    ofBudgets bs (r.refit stages clock metadata) failure = ofBudgets bs r failure := rfl

/-- Budgets that let the same pass, and forget the same, make no difference. -/
theorem ofBudgets_congr {bs bs' : List (Budget σ)}
    (hforget : ∀ runId m, Budget.forgetAll runId bs m = Budget.forgetAll runId bs' m)
    (hcharge : ∀ failure runId m, Budget.uncovered (Budget.chargeAll failure runId bs m) =
      Budget.uncovered (Budget.chargeAll failure runId bs' m))
    (r : Running (Recorded σ)) (failure : Option Failure) :
    ofBudgets bs r failure = ofBudgets bs' r failure := by
  unfold ofBudgets
  simp only [hforget, hcharge]

end Observation

/-! ## Agents -/

/-- The source that delivers the same without the events of blocked types. -/
def Source.without (blocked : EventType → Bool) (source : Source σ) : Source σ :=
  fun request m ↦ ((source request m).1.without blocked, (source request m).2)

namespace Agent

/-- The agent with other stages and another clock. -/
def refit (a : Agent σ) (stages : Registry (Stage σ)) (clock : Clock) : Agent σ :=
  { a with stages, clock }

/-- Assembling a request looks neither at stages nor at the clock. -/
theorem assemble_absorb_refit (a : Agent σ) (stages : Registry (Stage σ)) (clock : Clock)
    (params : RunParams) :
    ((a.refit stages clock).absorb params).assemble params =
      (((a.absorb params).assemble params).1,
        ((a.absorb params).assemble params).2.refit stages clock) := by
  have habsorb : (a.refit stages clock).absorb params = (a.absorb params).refit stages clock := by
    rw [absorb_eq, absorb_eq]
    rfl
  have hid (a : Agent σ) (kind : IdKind) (given : Option String) :
      (a.refit stages clock).idOr kind given =
        ((a.idOr kind given).1, (a.idOr kind given).2.refit stages clock) := by
    cases given with
    | none => rfl
    | some id => rfl
  rw [habsorb]
  simp only [assemble, hid]
  rfl

/-- Built-in stages pass a request as it is. -/
theorem prepare_builtin {a : Agent σ} {chain : List (Builtin σ)}
    (h : a.stages.values = chain.map Builtin.stage) (params : RunParams) :
    ∃ metadata, a.prepare params =
      (.ok ⟨((a.absorb params).assemble params).1, metadata⟩,
        ((a.absorb params).assemble params).2.refit a.stages a.clock.tick) := by
  have hassemble : (a.absorb params).assemble params = _ :=
    a.assemble_absorb_refit a.stages a.clock params
  obtain ⟨input, b, hb⟩ : ∃ input b, (a.absorb params).assemble params = (input, b) := ⟨_, _, rfl⟩
  rw [hb] at hassemble
  have hself : b = b.refit a.stages a.clock := congrArg Prod.snd hassemble
  have hstages : b.stages.values = chain.map Builtin.stage := by
    rw [hself]
    exact h
  obtain ⟨metadata, hrequest⟩ := Chain.request_builtin chain input (b.scene none [])
  have hresume :
      b.resume ((b.scene none []).annotated metadata) = b.refit a.stages a.clock.tick := by
    rw [hself]
    rfl
  refine ⟨metadata, ?_⟩
  rw [prepare, hb]
  dsimp only
  rw [hstages, hrequest]
  dsimp only
  rw [hresume]
  rfl

/-- The run that an agent begins with a request that passes as it is, and what it receives. -/
def received (a : Agent σ) (params : RunParams) (source : Source σ) : Reception × Running σ :=
  let (input, b) := (a.absorb params).assemble params
  b.ask { input } source

theorem received_refit (a : Agent σ) (stages : Registry (Stage σ)) (clock : Clock)
    (params : RunParams) (source : Source σ) :
    (a.refit stages clock).received params source =
      ((a.received params source).1, (a.received params source).2.refit stages clock []) := by
  rw [received, assemble_absorb_refit]
  rfl

theorem received_without (a : Agent σ) (params : RunParams) (source : Source σ)
    (blocked : EventType → Bool) :
    a.received params (source.without blocked) =
      ((a.received params source).1.without blocked, (a.received params source).2) := rfl

/-- The record makes no difference to what is received. -/
theorem received_noting (a : Agent σ) (params : RunParams) (source : Source σ) :
    (a.noting.received params source.recording).1 = (a.received params source).1 := by
  obtain ⟨input, b, b', hb, hb', hsame⟩ :=
    (((Correspondence.sameAgent_noting a).absorb params).assemble params).exists
  rw [received, received, hb, hb']
  exact (hsame.ask { input } source).1

theorem received_endpoint {a : Agent σ} {params : RunParams} {source : Source σ} {x : Reception}
    {r : Running σ} (h : a.received params source = (x, r)) : r.agent.endpoint = a.endpoint := by
  obtain ⟨input, session, memory, hb⟩ := a.exists_absorb_assemble params
  rw [received, hb] at h
  obtain rfl := congrArg Prod.snd h
  rfl

section Builtin

variable {a : Agent σ} {chain : List (Builtin σ)}

/-- An agent with built-in stages begins its runs with requests that pass as they are. -/
theorem exists_ask_builtin (h : a.stages.values = chain.map Builtin.stage) (params : RunParams) :
    ∃ request b metadata, a.prepare params = (.ok request, b) ∧
      ∀ source, b.ask request source =
        ((a.received params source).1,
          (a.received params source).2.refit a.stages a.clock.tick metadata) := by
  obtain ⟨metadata, hprepare⟩ := prepare_builtin h params
  exact ⟨_, _, metadata, hprepare, fun source ↦ rfl⟩

/-- What is observed of a run through built-in stages depends on them only by the events that they
let pass and by their budgets. -/
theorem observe_builtin (h : a.stages.values = chain.map Builtin.stage) (params : RunParams)
    (source : Source σ) :
    a.observe params source =
      let (x, r) := a.noting.received params source.recording
      let (refused, events) := Running.read a.endpoint.policy a.clock.tick x.payloads
      some (.ofBudgets (Builtin.budgets chain) ((Running.kept chain events).foldl Running.handle r)
        (refused.or x.failure)) := by
  have hnoting : a.noting.stages.values = (chain.map Builtin.beside).map Builtin.stage := by
    have hvalues : a.noting.stages.values = a.stages.values.map Stage.beside := by
      simp only [noting, Registry.values, Registry.mapNumbered, List.map_map]
      rfl
    rw [hvalues, h, List.map_map, List.map_map]
    exact List.map_congr_left fun g _ ↦ g.stage_beside.symm
  obtain ⟨request, b, metadata, hprepare, hask⟩ := exists_ask_builtin hnoting params
  obtain ⟨x, r, hreceived⟩ : ∃ x r, a.noting.received params source.recording = (x, r) :=
    ⟨_, _, rfl⟩
  have hendpoint : r.agent.endpoint = a.endpoint := received_endpoint hreceived
  rw [observe, hprepare]
  dsimp only
  rw [hask, hreceived]
  dsimp only
  rw [Observation.ofEnd_driveOver hnoting]
  dsimp only
  rw [Running.foldl_handle_refit, Observation.ofBudgets_refit, ← hendpoint]
  rfl

/-- The same with other built-in stages and another clock. -/
theorem observe_refit {stages : Registry (Stage σ)} (h : stages.values = chain.map Builtin.stage)
    (a : Agent σ) (clock : Clock) (params : RunParams) (source : Source σ) :
    (a.refit stages clock).observe params source =
      let (x, r) := a.noting.received params source.recording
      let (refused, events) := Running.read a.endpoint.policy clock.tick x.payloads
      some (.ofBudgets (Builtin.budgets chain) ((Running.kept chain events).foldl Running.handle r)
        (refused.or x.failure)) := by
  have hnoting : (a.refit stages clock).noting =
      a.noting.refit (stages.mapNumbered fun _ ↦ Stage.beside) clock := rfl
  rw [observe_builtin (a := a.refit stages clock) h, hnoting, received_refit]
  dsimp only
  rw [Running.foldl_handle_refit, Observation.ofBudgets_refit]
  rfl

/-- Without filters, a run over what is left when the blocked events are deleted is observed to be
the same. -/
theorem observe_without (h : a.stages.values = chain.map Builtin.stage) {params : RunParams}
    {source : Source σ} {stages : Registry (Stage σ)} {clock : Clock}
    (hstages : stages.values = (chain.filter fun g ↦ !g.isFilter).map Builtin.stage)
    (hclock : (Running.read a.endpoint.policy clock.tick
      ((a.received params source).1.without (Builtin.anyBlocks chain)).payloads).2 =
        Running.kept chain
          (Running.read a.endpoint.policy a.clock.tick (a.received params source).1.payloads).2) :
    (a.refit stages clock).observe params (source.without (Builtin.anyBlocks chain)) =
      a.observe params source := by
  have hsource : (source.without (Builtin.anyBlocks chain)).recording =
      source.recording.without (Builtin.anyBlocks chain) := rfl
  have hrefused : (Running.read a.endpoint.policy clock.tick
      ((a.received params source).1.without (Builtin.anyBlocks chain)).payloads).1 =
        (Running.read a.endpoint.policy a.clock.tick (a.received params source).1.payloads).1 :=
    Running.read_without_fst ..
  rw [observe_refit hstages, observe_builtin h, hsource, received_without,
    Builtin.budgets_withoutFilters]
  dsimp only
  rw [received_noting, Running.kept_withoutFilters, hrefused, hclock]
  rfl

/-- The order of the stages makes no difference to what is observed. -/
theorem observe_perm (h : a.stages.values = chain.map Builtin.stage) {chain' : List (Builtin σ)}
    {stages : Registry (Stage σ)} (hperm : chain'.Perm chain)
    (hstages : stages.values = chain'.map Builtin.stage)
    (hseparate : Budget.Separate (Builtin.budgets chain)) (params : RunParams)
    (source : Source σ) :
    (a.refit stages a.clock).observe params source = a.observe params source := by
  have hkept : Running.kept chain' = Running.kept chain := by
    funext events
    simp only [Running.kept, Builtin.anyBlocks_perm hperm]
  have hbudgets : (Builtin.budgets chain).Perm (Builtin.budgets chain') :=
    (hperm.filterMap Builtin.budget?).symm
  rw [observe_refit hstages, observe_builtin h, hkept]
  refine congrArg some (Observation.ofBudgets_congr (fun runId m ↦ ?_) (fun failure runId m ↦ ?_)
    _ _).symm
  · exact Budget.forgetAll_perm runId hbudgets hseparate m
  · exact Budget.uncovered_chargeAll_perm failure runId hbudgets hseparate m

/-- What the filters of a chain come to, for the run `r` of an agent over what it receives. -/
structure FiltersExactly (a : Agent σ) (chain : List (Builtin σ)) (params : RunParams)
    (source : Source σ) (x : Reception) (r : Running σ) : Prop where
  /-- The events that are handled are those that the payloads are and that are not blocked, in the
  order in which they arrive, as they are. -/
  handled : (r.operations x.payloads).filterMap Operation.event? =
    Running.kept chain (r.events x.payloads)
  /-- The session at the end is what handling them makes of it. -/
  session : (r.driveOver x).2.agent.session =
    r.agent.session.performAll (r.operations x.payloads)
  /-- The agent without filters is observed to do the same where the events that are blocked have
  been deleted from the stream, on a clock on which the others are read as they are here. -/
  unfiltered : ∀ (stages : Registry (Stage σ)) (clock : Clock),
    stages.values = (chain.filter fun g ↦ !g.isFilter).map Builtin.stage →
    (Running.read a.endpoint.policy clock.tick
      (x.without (Builtin.anyBlocks chain)).payloads).2 =
        Running.kept chain (r.events x.payloads) →
    (a.refit stages clock).observe params (source.without (Builtin.anyBlocks chain)) =
      a.observe params source
  /-- There is such a clock. -/
  clock : ∃ clock : Clock,
    (Running.read a.endpoint.policy clock.tick
      (x.without (Builtin.anyBlocks chain)).payloads).2 = Running.kept chain (r.events x.payloads)
  /-- The agent is observed to do the same with its stages in any other order. -/
  permuted : ∀ (chain' : List (Builtin σ)) (stages : Registry (Stage σ)), chain'.Perm chain →
    stages.values = chain'.map Builtin.stage → Budget.Separate (Builtin.budgets chain) →
    (a.refit stages a.clock).observe params source = a.observe params source

/-- **Filters are exact.** Let the stages of an agent be logging stages, deadlines, retry budgets
and filters, in any number and order. Then every run of it is begun, and over every stream of
payloads

* the events that are handled are those that no filter blocks, in the order in which they arrive and
  as they are;
* the outcome with the result, the session, the number of events and the calls of the subscribers
  are those of the agent without filters over the stream without the events that are blocked; and
* they are the same in every order of the stages, as long as each budget counts for itself. -/
theorem filters_exact (h : a.stages.values = chain.map Builtin.stage) (params : RunParams)
    (source : Source σ) :
    ∃ request b x r calls, a.prepare params = (.ok request, b) ∧ b.ask request source = (x, r) ∧
      a.observe params source =
        some ⟨(r.driveOver x).1, (r.driveOver x).2.agent.session,
          (r.driveOver x).2.run.eventsProcessed, calls⟩ ∧
      (∀ waits t, source = t.source waits →
        a.run params waits t = ((r.driveOver x).1, (r.driveOver x).2.agent)) ∧
      a.FiltersExactly chain params source x r := by
  obtain ⟨request, b, metadata, hprepare, hask⟩ := exists_ask_builtin h params
  obtain ⟨x, q, hreceived⟩ : ∃ x q, a.received params source = (x, q) := ⟨_, _, rfl⟩
  obtain ⟨r, hr⟩ : ∃ r, r = q.refit a.stages a.clock.tick metadata := ⟨_, rfl⟩
  have hxr : b.ask request source = (x, r) := by rw [hask, hreceived, hr]
  obtain ⟨calls, hcalls⟩ := a.exists_observe params source hprepare hxr
  have hstages : r.agent.stages.values = chain.map Builtin.stage := by
    rw [hr]
    exact h
  have hevents : r.events x.payloads =
      (Running.read a.endpoint.policy a.clock.tick x.payloads).2 := by
    have hendpoint : q.agent.endpoint = a.endpoint := received_endpoint hreceived
    rw [hr, ← hendpoint]
    rfl
  refine ⟨request, b, x, r, calls, hprepare, hxr, hcalls, fun waits t ht ↦ ?_, ?_⟩
  · rw [run_eq_ask a params waits t hprepare, ← ht, hxr]
  · exact
      { handled := Running.operations_builtin hstages x.payloads
        session := r.session_driveOver x
        unfiltered := fun stages clock hfilter hclock ↦ by
          rw [hevents] at hclock
          have hx : (a.received params source).1 = x := by rw [hreceived]
          rw [← hx] at hclock
          exact observe_without h hfilter hclock
        clock := by
          rw [hevents]
          exact Running.exists_clock (Builtin.anyBlocks chain) a.endpoint.policy a.clock.tick
            x.payloads
        permuted := fun chain' stages hperm hvalues hseparate ↦
          observe_perm h hperm hvalues hseparate params source }

end Builtin

/-! ## A filtered run -/

/-- A budget that counts in the first part of a memory. -/
def firstBudget : Budget (Attempts × Attempts) :=
  ⟨{}, { get := Prod.fst, put := fun counts m ↦ (counts, m.2) }⟩

/-- A smaller budget that counts in the second part. -/
def secondBudget : Budget (Attempts × Attempts) :=
  ⟨{ maxRetries := 1 }, { get := Prod.snd, put := fun counts m ↦ (m.1, counts) }⟩

/-- A filter for the beginnings of tool calls, between two budgets. -/
def filterChain : List (Builtin (Attempts × Attempts)) :=
  [.retry firstBudget, .filter ⟨[.toolCallStart]⟩, .deadline 5000, .retry secondBudget, .logging]

/-- A registry to which some built-in stages were added. -/
def registryOf (chain : List (Builtin σ)) : Registry (Stage σ) :=
  { entries := ((chain.map Builtin.stage).zipIdx 1).map Prod.swap, issued := chain.length }

theorem values_registryOf (chain : List (Builtin σ)) :
    (registryOf chain).values = chain.map Builtin.stage := by
  rw [registryOf, Registry.values, List.map_map]
  exact List.zipIdx_map_fst ..

def filteringAgent : Agent (Attempts × Attempts) where
  endpoint := { url := "u", agentId := none, headers := [], timeoutMs := 0, policy := .skip }
  session := {}
  stages := registryOf filterChain
  clock := { moment := fun n ↦ { now := n, freshId := fun _ ↦ "f" } }
  memory := ([], [])

/-- A tool call is begun, something is said that nobody knows, something that is no event, and a
text. -/
def mixedPayloads : List String :=
  let docs : List Json := [Sample.toolCallStart "t" "f" none, .obj [("type", .str "NEWS")],
    .obj [], Sample.textMessageChunk "m" "x"]
  docs.map Json.compact

/-- A stream that is lost after these payloads. -/
def mixedSource : Source (Attempts × Attempts) :=
  fun _ m ↦ ({ payloads := mixedPayloads, failure := some (.network "lost") }, m)

/-- Of a stream that is lost, the beginning of a tool call is blocked. The same is observed without
the filter if it is not sent, and with the stages in the reverse order. -/
theorem filters_exact_mixed :
    let a := filteringAgent
    let blocked := Builtin.anyBlocks filterChain
    let unfiltered := registryOf (filterChain.filter fun g ↦ !g.isFilter)
    a.stages.values = filterChain.map Builtin.stage ∧
      (∃ request b x r, a.prepare {} = (.ok request, b) ∧ b.ask request mixedSource = (x, r) ∧
        ((r.operations x.payloads).filterMap Operation.event?).map Event.type =
          [.raw, .textMessageChunk]) ∧
      (∃ clock, (a.refit unfiltered clock).observe {} (mixedSource.without blocked) =
        a.observe {} mixedSource) ∧
      (a.refit (registryOf filterChain.reverse) a.clock).observe {} mixedSource =
        a.observe {} mixedSource := by
  intro a blocked unfiltered
  obtain ⟨request, b, x, r, calls, hprepare, hask, -, -, hexact⟩ :=
    filters_exact (a := filteringAgent) (values_registryOf filterChain) {} mixedSource
  have hseparate : Budget.Separate [firstBudget, secondBudget] :=
    Budget.separate_pair ⟨fun _ _ ↦ rfl, fun _ _ ↦ rfl, fun _ _ _ ↦ rfl⟩
  have hb : b = (a.prepare {}).2 := congrArg Prod.snd hprepare.symm
  have hx : x.payloads = mixedPayloads := congrArg (fun y ↦ y.1.payloads) hask.symm
  have hr : r = (b.ask request mixedSource).2 := congrArg Prod.snd hask.symm
  have htypes : ((r.operations x.payloads).filterMap Operation.event?).map Event.type =
      [.raw, .textMessageChunk] := by
    rw [hexact.handled, hx, hr, hb]
    change (Running.kept filterChain
      (Running.read .skip (a.prepare {}).2.clock mixedPayloads).2).map Event.type = _
    decide +kernel
  obtain ⟨clock, hclock⟩ := hexact.clock
  exact ⟨values_registryOf filterChain, ⟨request, b, x, r, hprepare, hask, htypes⟩,
    ⟨clock, hexact.unfiltered unfiltered clock (values_registryOf _) hclock⟩,
    hexact.permuted filterChain.reverse (registryOf filterChain.reverse) (List.reverse_perm _)
      (values_registryOf _) hseparate⟩

end Agent

end AgentSession
