import AgentSession.Agent.Drive
import AgentSession.Proofs.Framing.Grammar
/-!
# The pieces of an answer

Driving a run over an answer comes to the same end however the answer is cut into pieces.

## Processing and framing commute

Nothing that a run does with a payload looks at the framer, so a run may be given another framer
before or after (`Running.process_withFramer`). `Running.processEach` is what a run does with some
payloads when its framer is left alone, and it is a left fold in disguise
(`Running.processEach_append`).

## Where the pieces show

While a run is fed, the cut shows in nothing but the payloads that a refused one leaves in the
framer, and `Running.fail` empties the framer first. `Running.settled` empties it already where a
feeding has stopped, and makes feeding piece by piece equal to feeding all at once
(`Running.settled_feedAll`).
-/

namespace AgentSession

variable {σ : Type}

namespace Running

/-! ## Runs with another framer -/

/-- The run in progress with another framer. -/
def withFramer (r : Running σ) (framer : Framer) : Running σ :=
  { r with agent := { r.agent with framer } }

@[simp] theorem withFramer_framer (r : Running σ) (framer : Framer) :
    (r.withFramer framer).agent.framer = framer := rfl

@[simp] theorem withFramer_withFramer (r : Running σ) (f g : Framer) :
    (r.withFramer f).withFramer g = r.withFramer g := rfl

@[simp] theorem withFramer_self (r : Running σ) : r.withFramer r.agent.framer = r := rfl

/-- The run in progress of an agent with another endpoint and another framer. Handling an event
looks at neither. -/
def equip (r : Running σ) (endpoint : Endpoint) (framer : Framer) : Running σ :=
  { r with agent := { r.agent with endpoint, framer } }

theorem handle_equip (r : Running σ) (endpoint : Endpoint) (framer : Framer) (e : Event) :
    (r.equip endpoint framer).handle e = (r.handle e).equip endpoint framer := by
  unfold handle Agent.handle equip
  dsimp only
  cases (r.agent.session.handle r.agent.subscribers.values e r.agent.memory).outcome <;> rfl

theorem takeEvent_equip (r : Running σ) (endpoint : Endpoint) (framer : Framer) (e : Event) :
    (r.equip endpoint framer).takeEvent e = (r.takeEvent e).equip endpoint framer := by
  have hfoldl (events : List Event) (r : Running σ) :
      events.foldl handle (r.equip endpoint framer) =
        (events.foldl handle r).equip endpoint framer := by
    induction events generalizing r with
    | nil => rfl
    | cons e events ih => rw [List.foldl_cons, handle_equip, ih, List.foldl_cons]
  exact hfoldl _ (r.resume _)

theorem takeEvent_endpoint (r : Running σ) (e : Event) :
    (r.takeEvent e).agent.endpoint = r.agent.endpoint := by
  have h : r.takeEvent e = (r.takeEvent e).equip r.agent.endpoint r.agent.framer :=
    r.takeEvent_equip r.agent.endpoint r.agent.framer e
  rw [h]
  rfl

theorem takeEvent_framer (r : Running σ) (e : Event) :
    (r.takeEvent e).agent.framer = r.agent.framer := by
  have h : r.takeEvent e = (r.takeEvent e).equip r.agent.endpoint r.agent.framer :=
    r.takeEvent_equip r.agent.endpoint r.agent.framer e
  rw [h]
  rfl

theorem takeEvent_withFramer (r : Running σ) (framer : Framer) (e : Event) :
    (r.withFramer framer).takeEvent e = (r.takeEvent e).withFramer framer := by
  have h : (r.withFramer framer).takeEvent e = (r.takeEvent e).equip r.agent.endpoint framer :=
    r.takeEvent_equip r.agent.endpoint framer e
  rw [h, ← takeEvent_endpoint r e]
  rfl

theorem process_withFramer (r : Running σ) (framer : Framer) (payload : String) :
    (r.withFramer framer).process payload = (r.process payload).map (·.withFramer framer) := by
  unfold process
  -- a payload is read with the clock and the policy of the agent alone
  rw [show (r.withFramer framer).agent.clock = r.agent.clock from rfl,
    show (r.withFramer framer).agent.endpoint = r.agent.endpoint from rfl]
  cases decode r.agent.clock.present payload with
  | ok e => exact congrArg Except.ok (takeEvent_withFramer r framer e)
  | error failure => cases r.agent.endpoint.policy <;> rfl

/-! ## Payloads one after the other -/

/-- Processes payloads in order, up to the first that is refused, and leaves the framer alone. -/
def processEach (r : Running σ) : List String → Option Failure × Running σ
  | [] => (none, r)
  | payload :: rest =>
    match r.process payload with
    | .ok r => r.processEach rest
    | .error failure => (some failure, r)

theorem processEach_append (r : Running σ) (xs ys : List String) :
    r.processEach (xs ++ ys) =
      match r.processEach xs with
      | (none, r) => r.processEach ys
      | (some failure, r) => (some failure, r) := by
  induction xs generalizing r with
  | nil => rfl
  | cons x xs ih =>
    simp only [List.cons_append, processEach]
    cases r.process x with
    | ok r => exact ih r
    | error failure => rfl

theorem processEach_withFramer (r : Running σ) (framer : Framer) (payloads : List String) :
    (r.withFramer framer).processEach payloads =
      ((r.processEach payloads).1, (r.processEach payloads).2.withFramer framer) := by
  induction payloads generalizing r with
  | nil => rfl
  | cons payload rest ih =>
    simp only [processEach, process_withFramer]
    cases r.process payload with
    | ok r => exact ih r
    | error failure => rfl

/-- What feeding leads to when a failure empties the framer. -/
def settled : Option Failure × Running σ → Option Failure × Running σ
  | (none, r) => (none, r)
  | (some failure, r) => (some failure, r.withFramer {})

/-- Processing the payloads that wait in the framer is processing them without it. -/
theorem settled_processAll (r : Running σ) (payloads : List String) :
    settled (r.processAll payloads) =
      match r.processEach payloads with
      | (none, r) => (none, r.leave [])
      | (some failure, r) => (some failure, r.withFramer {}) := by
  induction payloads generalizing r with
  | nil => rfl
  | cons payload rest ih =>
    simp only [processAll, processEach]
    cases r.process payload with
    | ok r => exact ih r
    | error failure => rfl

theorem settled_advance (r : Running σ) (framer : Framer) :
    settled (r.advance framer) =
      match r.processEach framer.ready with
      | (none, r) => (none, r.withFramer { framer with ready := [] })
      | (some failure, r) => (some failure, r.withFramer {}) := by
  have hadvance : r.advance framer = (r.withFramer framer).processAll framer.ready := rfl
  rw [hadvance, settled_processAll, processEach_withFramer]
  rcases r.processEach framer.ready with ⟨_ | failure, r⟩ <;> rfl

/-! ## Pieces one after the other -/

/-- Takes pieces in order, up to the first failure. -/
def feedAll (r : Running σ) : List Bytes → Option Failure × Running σ
  | [] => (none, r)
  | piece :: pieces =>
    match r.feed piece with
    | (none, r) => r.feedAll pieces
    | (some failure, r) => (some failure, r)

/-- Feeding two pieces at once processes the payloads of the first before those of the second. -/
theorem settled_feed_append (r : Running σ) (p q : Bytes) :
    settled (r.feed (p ++ q)) =
      match settled (r.feed p) with
      | (none, r) => settled (r.feed q)
      | (some failure, r) => (some failure, r) := by
  -- the first piece leaves the framer `g` with the payloads that `rest` has not
  set g := r.agent.framer.feed p with hg
  set rest : Framer := { g with ready := [] } with hrest
  have hfeed : r.agent.framer.feed (p ++ q) = (rest.feed q).behind g.ready := by
    rw [Framer.feed_append, ← Framer.feed_behind, hrest, Framer.behind, List.append_nil]
  have hready : ((rest.feed q).behind g.ready).ready = g.ready ++ (rest.feed q).ready := rfl
  simp only [feed, settled_advance]
  rw [hfeed, hready, processEach_append, ← hg]
  rcases hp : r.processEach g.ready with ⟨_ | failure, r'⟩
  · -- the payloads of the first piece are all taken, and those of the second are left
    simp only [withFramer_framer, processEach_withFramer]
    rcases hq : r'.processEach (rest.feed q).ready with ⟨_ | failure, r''⟩ <;> rfl
  · rfl

/-- A piece that is taken without failure leaves no payload waiting. -/
theorem ready_of_feed {r r' : Running σ} {piece : Bytes} (h : r.feed piece = (none, r')) :
    r'.agent.framer.ready = [] := by
  have hsettled : settled (r.feed piece) = (none, r') := by rw [h]; rfl
  rw [feed, settled_advance] at hsettled
  split at hsettled
  · obtain ⟨-, rfl⟩ := Prod.mk.inj hsettled
    rfl
  · cases hsettled

theorem feed_nil {r : Running σ} (h : r.agent.framer.ready = []) : r.feed [] = (none, r) := by
  have hleave : r.leave [] = r := by
    rw [leave, ← h]
  rw [feed, Framer.feed_nil, advance, h, processAll]
  exact congrArg _ hleave

/-- Feeding piece by piece is feeding all at once. -/
theorem settled_feedAll {r : Running σ} (pieces : List Bytes) (h : r.agent.framer.ready = []) :
    settled (r.feedAll pieces) = settled (r.feed pieces.flatten) := by
  induction pieces generalizing r with
  | nil => rw [List.flatten_nil, feed_nil h, feedAll]
  | cons piece pieces ih =>
    rw [List.flatten_cons, settled_feed_append, feedAll]
    rcases hp : r.feed piece with ⟨_ | failure, r'⟩
    · exact ih (ready_of_feed hp)
    · rfl

/-! ## The end of a run -/

/-- Lets a run fail, and gives its end together with the run. -/
def settle (r : Running σ) (failure : Failure) : Outcome × Running σ :=
  match r.fail failure with
  | (some failure, r) => (.failed failure, r)
  | (none, r) => (.suppressed, r)

/-- Drives a run to its end over the pieces of an answer: it takes the pieces in order, and fails at
the first failure; otherwise it is finished, and fails if that does. -/
def complete (r : Running σ) (pieces : List Bytes) : Outcome × Running σ :=
  match r.feedAll pieces with
  | (some failure, r) => r.settle failure
  | (none, r) =>
    match r.finish with
    | (.ok result, r) => (.finished result, r)
    | (.error failure, r) => r.settle failure

/-- A failure empties the framer, so what a feeding leaves there does not matter. -/
theorem complete_eq_settled (r : Running σ) (pieces : List Bytes) :
    r.complete pieces =
      match settled (r.feedAll pieces) with
      | (some failure, r) => r.settle failure
      | (none, r) =>
        match r.finish with
        | (.ok result, r) => (.finished result, r)
        | (.error failure, r) => r.settle failure := by
  unfold complete
  -- `fail` puts an empty framer in place of the one that `settled` has emptied
  rcases r.feedAll pieces with ⟨_ | failure, r⟩ <;> rfl

/-- **The cut does not matter.** A run that has no payloads waiting comes to the same end, and to
the same run, over every two lists of pieces with the same bytes. -/
theorem complete_congr {r : Running σ} {ps qs : List Bytes} (hr : r.agent.framer.ready = [])
    (h : ps.flatten = qs.flatten) : r.complete ps = r.complete qs := by
  rw [complete_eq_settled, complete_eq_settled, settled_feedAll ps hr, settled_feedAll qs hr, h]

/-! ## Driving by the waits -/

theorem consume_none_eq_feedAll (r : Running σ) (pieces : List Bytes) :
    r.consume none (pieces.map .ok) = r.feedAll pieces := by
  induction pieces generalizing r with
  | nil => rfl
  | cons piece pieces ih =>
    rw [List.map_cons, consume, feedAll]
    rcases r.feed piece with ⟨_ | failure, r⟩
    · exact ih r
    · rfl
    · nofun

theorem giveUp_eq_settle (r : Running σ) (failure : Failure) :
    r.giveUp failure = ((r.settle failure).1, (r.settle failure).2.agent) := by
  unfold giveUp settle
  rcases r.fail failure with ⟨_ | failure, r⟩ <;> rfl

/-- Driving a run that is never cancelled is completing it. -/
theorem drive_none_eq_complete (r : Running σ) (pieces : List Bytes) :
    r.drive none (pieces.map .ok) = ((r.complete pieces).1, (r.complete pieces).2.agent) := by
  unfold drive complete
  rw [consume_none_eq_feedAll]
  rcases r.feedAll pieces with ⟨_ | failure, r⟩
  · dsimp only
    rcases r.finish with ⟨failure | result, r⟩
    · exact giveUp_eq_settle r failure
    · rfl
  · exact giveUp_eq_settle r failure

end Running

end AgentSession
