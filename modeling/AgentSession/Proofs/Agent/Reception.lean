import AgentSession.Proofs.Agent.Correspondence
/-!
# What a run receives

Of the answer to a request, two things matter to a run: the payloads that it spells, and the failure
that cuts it off, be it a failure of the stream or that the run is cancelled while it waits. A
`Reception` keeps these two. A failure discards the payload in progress, and the regular end of the
stream completes it (`Reception.ofArrivals`).

A `Source` says what a run receives for a request. Every transport is one (`Agent.opened_eq_ask`).

## Framing first

A run that has just begun frames and processes by turns. It comes to the same end, and is the same
run afterwards, if the whole answer is framed first and then processed payload by payload
(`Running.ended_consume`). So what is to be shown of driven runs can be shown of
`Running.driveOver`, which is a recursion on the list of payloads.
-/

namespace AgentSession

variable {σ τ : Type}

namespace Framer

/-- Nothing is in progress after a flush. -/
theorem flush_eq (f : Framer) : f.flush = { ready := f.flush.ready } := by
  have htail : f.flush.tail = [] := by
    rw [flush]
    split
    · rename_i h
      rw [endEvent_tail, h]
    · rw [endEvent_tail, endLine, takeLine_tail, withoutTail_tail]
  have hdata : f.flush.data = [] := by
    rw [flush]
    split <;> exact endEvent_data _
  exact Framer.ext htail hdata rfl

end Framer

/-! ## Receptions -/

/-- What a run receives: payloads, and the failure that cuts them off, if one does. -/
structure Reception where
  payloads : List String := []
  failure : Option Failure := none
deriving DecidableEq, Repr

/-- The bytes of some arrivals up to the first failure, and that failure. Being cancelled, after a
number of waits, is a failure as well. -/
def Arrival.received : Option Nat → List Arrival → Bytes × Option Failure
  | some 0, _ => ([], some (.cancelled Running.cancelReason))
  | _, [] => ([], none)
  | _, .error failure :: _ => ([], some failure)
  | waits, .ok piece :: arrivals =>
    let (bytes, failure) := received (waits.map (· - 1)) arrivals
    (piece ++ bytes, failure)

/-- Pieces that arrive first add their bytes, and nothing else. -/
theorem Arrival.received_append (pieces : List Bytes) (rest : List Arrival) :
    received none (pieces.map .ok ++ rest) =
      (pieces.flatten ++ (received none rest).1, (received none rest).2) := by
  induction pieces with
  | nil => rfl
  | cons piece pieces ih =>
    rw [List.map_cons, List.cons_append, received, Option.map_none, ih, List.flatten_cons,
      List.append_assoc]
    nofun

theorem Arrival.received_pieces (pieces : List Bytes) :
    received none (pieces.map .ok) = (pieces.flatten, none) := by
  have happend := received_append pieces []
  rwa [List.append_nil, received, List.append_nil] at happend
  nofun

namespace Reception

/-- The payloads of some bytes. Where a failure cuts them off, what is in progress is discarded. -/
def ofBytes (bytes : Bytes) : Option Failure → Reception
  | none => { payloads := Framer.payloads bytes }
  | some failure => { payloads := (({} : Framer).feed bytes).ready, failure }

def ofArrivals (waits : Option Nat) (arrivals : List Arrival) : Reception :=
  let (bytes, failure) := Arrival.received waits arrivals
  ofBytes bytes failure

/-- What a run receives from a transport that opens a stream or fails to. -/
def ofOpened (waits : Option Nat) : Except Failure (List Arrival) → Reception
  | .error failure => { failure := some failure }
  | .ok arrivals => ofArrivals waits arrivals

end Reception

namespace Running

variable {r : Running σ} {failure : Option Failure}

/-! ## Runs over what they receive -/

/-- Ends a run regularly: its result passes the stages, and the subscribers are told. -/
def conclude (r : Running σ) : Outcome × Running σ :=
  let (result, scene) := Chain.response r.agent.stages.values r.result r.scene
  let r := r.resume scene
  (.finished result, { r with agent := r.agent.tell (.runFinalized result) })

/-- Drives a run to its end over what it receives: it processes the payloads in order, and fails if
one is refused; otherwise it fails if the payloads were cut off, and is finished if not. -/
def driveOver (r : Running σ) (x : Reception) : Outcome × Running σ :=
  match r.processEach x.payloads with
  | (some failure, r) => r.settle failure
  | (none, r) =>
    match x.failure with
    | some failure => r.settle failure
    | none => r.conclude

/-- How a run fails when the stages have been shown its failure and this is left of it. -/
def afterFailure (r : Running σ) : Option Failure × Scene σ → Outcome × Running σ
  | (none, scene) => (.suppressed, (r.withFramer {}).resume scene)
  | (some failure, scene) =>
    let r := (r.withFramer {}).resume scene
    (.failed failure, { r with agent := r.agent.tell (.runFailed failure) })

theorem settle_eq (r : Running σ) (failure : Failure) :
    r.settle failure = r.afterFailure (Chain.error r.agent.stages.values failure r.scene) := by
  rcases h : Chain.error r.agent.stages.values failure r.scene with ⟨left, scene⟩
  have hscene : Chain.error (r.withFramer {}).agent.stages.values failure (r.withFramer {}).scene =
      (left, scene) := h
  unfold withFramer at hscene
  simp only [settle, fail, hscene]
  cases left with
  | none => rfl
  | some failure => rfl

/-- The end of a run, whatever it is, leaves the session as it is. -/
theorem conclude_session (r : Running σ) : r.conclude.2.agent.session = r.agent.session := rfl

theorem settle_session (r : Running σ) (failure : Failure) :
    (r.settle failure).2.agent.session = r.agent.session := by
  rw [settle_eq]
  rcases Chain.error r.agent.stages.values failure r.scene with ⟨_ | failure, scene⟩
  · rfl
  · rfl

/-- A failing run is not finished. -/
theorem settle_outcome (r : Running σ) (failure : Failure) :
    (r.settle failure).1 = .suppressed ∨ ∃ left, (r.settle failure).1 = .failed left := by
  rw [settle_eq]
  rcases Chain.error r.agent.stages.values failure r.scene with ⟨_ | left, scene⟩
  · exact .inl rfl
  · exact .inr ⟨left, rfl⟩

/-- How a run ends when a feeding has stopped. -/
def ended : Option Failure × Running σ → Outcome × Running σ
  | (some failure, r) => r.settle failure
  | (none, r) =>
    match r.finish with
    | (.ok result, r) => (.finished result, r)
    | (.error failure, r) => r.settle failure

theorem driveOver_append (r : Running σ) (xs ys : List String) (failure : Option Failure) :
    r.driveOver { payloads := xs ++ ys, failure } =
      match r.processEach xs with
      | (some failure, r) => r.settle failure
      | (none, r) => r.driveOver { payloads := ys, failure } := by
  rw [driveOver, processEach_append]
  rcases r.processEach xs with ⟨_ | refused, r⟩
  · rfl
  · rfl

theorem processEach_framer (r : Running σ) (payloads : List String) :
    (r.processEach payloads).2.agent.framer = r.agent.framer := by
  have h : r.processEach payloads =
      ((r.processEach payloads).1, (r.processEach payloads).2.withFramer r.agent.framer) :=
    r.processEach_withFramer r.agent.framer payloads
  exact congrArg (fun x ↦ x.2.agent.framer) h

/-- A failure empties the framer, so what is there does not matter. -/
theorem settle_withFramer (r : Running σ) (framer : Framer) (failure : Failure) :
    (r.withFramer framer).settle failure = r.settle failure := rfl

theorem ended_settled (x : Option Failure × Running σ) : ended (settled x) = ended x := by
  obtain ⟨failure | failure, r⟩ := x
  · rfl
  · exact settle_withFramer r {} failure

theorem ended_none (r : Running σ) :
    ended (none, r) =
      match settled (r.advance r.agent.framer.flush) with
      | (some failure, r) => r.settle failure
      | (none, r) => r.conclude := by
  simp only [ended, finish]
  rcases r.advance r.agent.framer.flush with ⟨_ | failure, r⟩
  · rfl
  · rfl

/-! ## Framing first -/

/-- What a feeding leads to that is cut off by a failure. -/
def cutOff (failure : Option Failure) : Option Failure × Running σ → Option Failure × Running σ
  | (some first, r) => (some first, r)
  | (none, r) => (failure, r)

/-- Taking pieces up to a failure is taking their bytes, and then failing. -/
theorem settled_consume (waits : Option Nat) (arrivals : List Arrival)
    (h : r.agent.framer.ready = []) :
    settled (r.consume waits arrivals) =
      settled (cutOff (Arrival.received waits arrivals).2
        (settled (r.feed (Arrival.received waits arrivals).1))) := by
  induction arrivals generalizing r waits with
  | nil =>
    rcases waits with _ | _ | n
    · simp only [consume, Arrival.received, feed_nil h, settled, cutOff]
    · simp only [consume, Arrival.received, feed_nil h, settled, cutOff]
    · simp only [consume, Arrival.received, feed_nil h, settled, cutOff]
  | cons arrival arrivals ih =>
    by_cases hwaits : waits = some 0
    · subst hwaits
      simp only [consume, Arrival.received, feed_nil h, settled, cutOff]
    · cases arrival with
      | error failure =>
        rw [consume, Arrival.received, feed_nil h]
        · rfl
        · exact hwaits
        · exact hwaits
      | ok piece =>
        rw [consume, Arrival.received, settled_feed_append]
        · rcases hp : r.feed piece with ⟨_ | failure, r'⟩
          · exact ih _ (ready_of_feed hp)
          · rfl
        · exact hwaits
        · exact hwaits

/-- Ending a run regularly flushes the framer, and processes what this completes. -/
theorem ended_none_eq_driveOver (rest : Framer) (h : r.agent.framer = {}) :
    ended (none, r.withFramer rest) = r.driveOver { payloads := rest.flush.ready } := by
  have hflush : ({ rest.flush with ready := [] } : Framer) = {} := by rw [Framer.flush_eq]
  have hlast : (r.processEach rest.flush.ready).2.agent.framer = {} := by
    rw [processEach_framer, h]
  rw [ended_none, settled_advance, withFramer_framer, processEach_withFramer, driveOver]
  rcases hp : r.processEach rest.flush.ready with ⟨_ | refused, r'⟩
  · rw [hp] at hlast
    dsimp only
    rw [withFramer_withFramer, hflush, ← hlast, withFramer_self]
  · exact settle_withFramer r' _ refused

/-- **Framing first.** A run with an empty framer comes to the same end over what arrives as over
the payloads of it, and is the same run afterwards. -/
theorem ended_consume (waits : Option Nat) (arrivals : List Arrival) (h : r.agent.framer = {}) :
    ended (r.consume waits arrivals) = r.driveOver (.ofArrivals waits arrivals) := by
  have hready : r.agent.framer.ready = [] := by rw [h]
  rw [← ended_settled, settled_consume waits arrivals hready, ended_settled]
  rcases hreceived : Arrival.received waits arrivals with ⟨bytes, failure⟩
  -- `g` has framed the bytes, and `rest` is what is then in progress
  obtain ⟨g, hg⟩ : ∃ g : Framer, g = ({} : Framer).feed bytes := ⟨_, rfl⟩
  have hfeed : r.feed bytes = r.advance g := by rw [feed, h, hg]
  have hx : Reception.ofArrivals waits arrivals = Reception.ofBytes bytes failure := by
    rw [Reception.ofArrivals, hreceived]
  rw [hx]
  dsimp only
  rw [hfeed, settled_advance]
  cases failure with
  | some failure =>
    have hpayloads : Reception.ofBytes bytes (some failure) = ⟨g.ready, some failure⟩ := by
      rw [hg]
      rfl
    rw [hpayloads, driveOver]
    rcases r.processEach g.ready with ⟨_ | refused, r'⟩
    · exact settle_withFramer r' _ failure
    · exact settle_withFramer r' {} refused
  | none =>
    obtain ⟨rest, hrest⟩ : ∃ rest : Framer, rest = { g with ready := [] } := ⟨_, rfl⟩
    have hbehind : g = rest.behind g.ready := by
      rw [hrest, Framer.behind, List.append_nil]
    have hpayloads :
        Reception.ofBytes bytes none = { payloads := g.ready ++ rest.flush.ready } := by
      rw [Reception.ofBytes.eq_def]
      dsimp only
      rw [Framer.payloads, ← hg, congrArg Framer.flush hbehind, Framer.flush_behind]
      rfl
    have hframer : (r.processEach g.ready).2.agent.framer = {} := by rw [processEach_framer, h]
    rw [hpayloads, driveOver_append, ← hrest]
    rcases hp : r.processEach g.ready with ⟨_ | refused, r'⟩
    · rw [hp] at hframer
      exact ended_none_eq_driveOver rest hframer
    · exact settle_withFramer r' {} refused

theorem drive_eq_driveOver (waits : Option Nat) (arrivals : List Arrival)
    (h : r.agent.framer = {}) :
    r.drive waits arrivals =
      ((r.driveOver (.ofArrivals waits arrivals)).1,
        (r.driveOver (.ofArrivals waits arrivals)).2.agent) := by
  rw [← ended_consume waits arrivals h, drive]
  rcases r.consume waits arrivals with ⟨_ | failure, r⟩
  · simp only [ended]
    rcases r.finish with ⟨failure | result, r⟩
    · exact giveUp_eq_settle r failure
    · rfl
  · exact giveUp_eq_settle r failure

end Running

/-! ## Corresponding runs -/

namespace Correspondence

variable {C : Correspondence σ τ} {r : Running σ} {r' : Running τ}

theorem SameRun.process (h : C.SameRun r r') (payload : String) :
    (∃ q q', r.process payload = .ok q ∧ r'.process payload = .ok q' ∧ C.SameRun q q') ∨
      ∃ failure, r.process payload = .error failure ∧ r'.process payload = .error failure := by
  rw [Running.process, Running.process, h.agent.endpoint]
  obtain ⟨e, e', he, he', hsame⟩ | ⟨failure, hf, hf'⟩ :=
    decode h.agent.clock.now_present h.agent.clock.freshId_present payload
  · rw [he, he']
    exact .inl ⟨_, _, rfl, rfl, h.takeEvent hsame⟩
  · rw [hf, hf']
    cases r'.agent.endpoint.policy with
    | skip => exact .inl ⟨_, _, rfl, rfl, h⟩
    | abort => exact .inr ⟨_, rfl, rfl⟩

theorem SameRun.processEach (h : C.SameRun r r') (payloads : List String) :
    C.SameStep (r.processEach payloads) (r'.processEach payloads) := by
  induction payloads generalizing r r' with
  | nil => exact ⟨rfl, h⟩
  | cons payload rest ih =>
    rw [Running.processEach, Running.processEach]
    obtain ⟨q, q', hq, hq', h⟩ | ⟨failure, hf, hf'⟩ := h.process payload
    · rw [hq, hq']
      exact ih h
    · rw [hf, hf']
      exact ⟨rfl, h⟩

theorem SameRun.conclude (h : C.SameRun r r') : C.SameStep r.conclude r'.conclude := by
  obtain ⟨result, _, s, s', hs, hs', rfl, hscene⟩ :=
    (response h.agent.stages h.scene r'.result).exists
  rw [Running.conclude, Running.conclude, h.result, hs, hs']
  exact ⟨rfl, (h.resume hscene).tell _⟩

/-- Corresponding runs that receive the same come to the same end. -/
theorem SameRun.driveOver (h : C.SameRun r r') (x : Reception) :
    C.SameStep (r.driveOver x) (r'.driveOver x) := by
  obtain ⟨refused, q, q', hq, hq', h⟩ := (h.processEach x.payloads).exists
  rw [Running.driveOver, Running.driveOver, hq, hq']
  cases refused with
  | some failure => exact h.settle failure
  | none =>
    cases x.failure with
    | some failure => exact h.settle failure
    | none => exact h.conclude

end Correspondence

namespace Agent

/-- The run that an agent begins with a request, when the transport has been asked, and what it will
receive. The transport is not asked if the run is cancelled at once. -/
def opened (a : Agent σ) (request : RunRequest) (waits : Option Nat) (t : Transport σ) :
    Reception × Running σ :=
  let r := a.begin request
  match waits with
  | some 0 => ({ failure := some (.cancelled Running.cancelReason) }, r)
  | _ =>
    let answer := t (a.transportRequest request.input) r.agent.memory
    (.ofOpened (waits.map (· - 1)) answer.1,
      { r with agent := { r.agent with memory := answer.2 } })

/-- Driving a run is preparing it, beginning it, and taking it over what it receives. -/
theorem run_eq_driveOver (a : Agent σ) (params : RunParams) (waits : Option Nat) (t : Transport σ) :
    a.run params waits t =
      match a.prepare params with
      | (.error failure, a) => (.failed failure, a)
      | (.ok request, a) =>
        let (x, r) := a.opened request waits t
        ((r.driveOver x).1, (r.driveOver x).2.agent) := by
  rw [run]
  rcases a.prepare params with ⟨failure | request, b⟩
  · rfl
  · have hgiveUp (r : Running σ) (failure : Failure) :
        r.giveUp failure =
          ((r.driveOver ⟨[], some failure⟩).1, (r.driveOver ⟨[], some failure⟩).2.agent) :=
      Running.giveUp_eq_settle r failure
    rcases waits with _ | _ | n
    · dsimp only [opened]
      rcases t (b.transportRequest request.input) (b.begin request).agent.memory with
        ⟨failure | arrivals, memory⟩
      · exact hgiveUp _ failure
      · exact Running.drive_eq_driveOver _ arrivals rfl
    · exact hgiveUp _ _
    · dsimp only [opened]
      rcases t (b.transportRequest request.input) (b.begin request).agent.memory with
        ⟨failure | arrivals, memory⟩
      · exact hgiveUp _ failure
      · exact Running.drive_eq_driveOver _ arrivals rfl

/-- A run over pieces that the caller has is one over a transport that has opened already. -/
theorem runStream_eq_run (a : Agent σ) (params : RunParams) (waits : Option Nat)
    (arrivals : List Arrival) :
    a.runStream params waits arrivals =
      a.run params (waits.map (· + 1)) fun _ memory ↦ (.ok arrivals, memory) := by
  rw [runStream, run]
  rcases a.prepare params with ⟨failure | request, b⟩
  · rfl
  · rcases waits with _ | n
    · rfl
    · rfl

end Agent

/-! ## Sources -/

/-- What a run receives for a request, and what is remembered afterwards. -/
abbrev Source (σ : Type) := TransportRequest → σ → Reception × σ

/-- What a run that is cancelled after a number of waits receives from a transport. -/
def Transport.source (t : Transport σ) : Option Nat → Source σ
  | some 0 => fun _ memory ↦ ({ failure := some (.cancelled Running.cancelReason) }, memory)
  | waits => fun request memory ↦
    let (opened, memory) := t request memory
    (.ofOpened (waits.map (· - 1)) opened, memory)

namespace Agent

/-- The run that an agent begins with a request, and what it receives. -/
def ask (a : Agent σ) (request : RunRequest) (source : Source σ) : Reception × Running σ :=
  let r := a.begin request
  let (x, memory) := source (a.transportRequest request.input) r.agent.memory
  (x, { r with agent := { r.agent with memory } })

/-- A transport is a source. -/
theorem opened_eq_ask (a : Agent σ) (request : RunRequest) (waits : Option Nat)
    (t : Transport σ) : a.opened request waits t = a.ask request (t.source waits) := by
  rcases waits with _ | _ | n
  · rfl
  · rfl
  · rfl

theorem run_eq_ask (a : Agent σ) (params : RunParams) (waits : Option Nat) (t : Transport σ)
    {request : RunRequest} {b : Agent σ} (h : a.prepare params = (.ok request, b)) :
    a.run params waits t =
      let (x, r) := b.ask request (t.source waits)
      ((r.driveOver x).1, (r.driveOver x).2.agent) := by
  rw [run_eq_driveOver, h]
  dsimp only
  rw [opened_eq_ask]

end Agent

end AgentSession
