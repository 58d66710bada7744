import AgentSession.Proofs.Agent.Delivery
import AgentSession.Proofs.Agent.Preparation
import AgentSession.Proofs.Agent.Reception
import AgentSession.Proofs.Framing.Stream
/-!
# The payloads of a run

There are two ways from pieces of an answer to its payloads. `Framer.stream` hands on what every
piece has completed, and flushes its framer at the end of the pieces. A run takes the payloads out
one by one, as it is fed and when it is finished, and what it does with a payload may end it.

`Running.processedByDrive` is the list of the payloads that a driven run processes, computed beside
the run. Where malformed payloads are skipped, no payload ends the run, and so the two ways come to
the same payloads (`Running.processedByDrive_eq`). What the program numbers when it decodes a
capture is therefore what a replay of it processes.
-/

namespace AgentSession

variable {σ : Type}

/-! ## What is handed on -/

theorem filterMap_toOption_ok (payloads : List String) :
    (payloads.map (.ok : String → Except Failure String)).filterMap Except.toOption = payloads := by
  rw [List.filterMap_map]
  exact List.filterMap_some

theorem filterMap_toOption (payloads : List String) (failure : Option Failure) :
    (payloads.map .ok ++ failure.toList.map .error : List (Except Failure String)).filterMap
      Except.toOption = payloads := by
  have hfailure : (failure.toList.map (.error : Failure → Except Failure String)).filterMap
      Except.toOption = [] := by
    cases failure with
    | none => rfl
    | some failure => rfl
  rw [List.filterMap_append, filterMap_toOption_ok, hfailure, List.append_nil]

/-- A framed stream hands on what a run receives: the payloads, and then the failure. -/
theorem Framer.stream_eq_reception (arrivals : List Arrival) :
    ({} : Framer).stream arrivals =
      (Reception.ofArrivals none arrivals).payloads.map .ok ++
        (Reception.ofArrivals none arrivals).failure.toList.map .error := by
  rcases stream_cases arrivals with ⟨pieces, rfl⟩ | ⟨pieces, failure, later, rfl⟩
  · rw [stream_map_ok, Reception.ofArrivals, Arrival.received_pieces]
    exact (List.append_nil _).symm
  · have hfailing : Arrival.received none (.error failure :: later) = ([], some failure) := rfl
    rw [stream_failing, Reception.ofArrivals, Arrival.received_append, hfailing, List.append_nil,
      ← ready_feed_eq_payloads]
    rfl

namespace Running

variable {r : Running σ}

/-! ## What a run processes -/

/-- The payloads that are processed of some that wait: all up to the first that is refused. -/
def processed (r : Running σ) : List String → List String
  | [] => []
  | payload :: rest =>
    match r.process payload with
    | .ok r => payload :: r.processed rest
    | .error _ => [payload]

/-- The payloads that a run processes when it goes on with a framer. -/
def processedByAdvance (r : Running σ) (framer : Framer) : List String :=
  (r.withFramer framer).processed framer.ready

def processedByFeed (r : Running σ) (piece : Bytes) : List String :=
  r.processedByAdvance (r.agent.framer.feed piece)

def processedByFinish (r : Running σ) : List String :=
  r.processedByAdvance r.agent.framer.flush

def processedByConsume (r : Running σ) : Option Nat → List Arrival → List String
  | some 0, _ => []
  | _, [] => []
  | _, .error _ :: _ => []
  | waits, .ok piece :: arrivals =>
    r.processedByFeed piece ++
      match r.feed piece with
      | (some _, _) => []
      | (none, r) => r.processedByConsume (waits.map (· - 1)) arrivals

/-- The payloads that a run processes when it is driven: those of the pieces, and if none of them
ends the run, those that finishing it completes. -/
def processedByDrive (r : Running σ) (waits : Option Nat) (arrivals : List Arrival) : List String :=
  r.processedByConsume waits arrivals ++
    match r.consume waits arrivals with
    | (some _, _) => []
    | (none, r) => r.processedByFinish

/-! ## Where malformed payloads are skipped -/

/-- No payload ends a run that skips malformed ones. -/
theorem exists_process_of_skip (h : r.agent.endpoint.policy = .skip) (payload : String) :
    ∃ q : Running σ, r.process payload = .ok q ∧ q.agent.endpoint = r.agent.endpoint ∧
      q.agent.framer = r.agent.framer := by
  rw [process]
  cases decode r.agent.clock.present payload with
  | ok e => exact ⟨_, rfl, r.takeEvent_endpoint e, r.takeEvent_framer e⟩
  | error failure =>
    rw [h]
    exact ⟨r, rfl, rfl, rfl⟩

theorem exists_processAll_of_skip (h : r.agent.endpoint.policy = .skip) (payloads : List String) :
    r.processed payloads = payloads ∧
      ∃ q : Running σ, r.processAll payloads = (none, q) ∧
        q.agent.endpoint = r.agent.endpoint ∧
        q.agent.framer = { r.agent.framer with ready := [] } := by
  induction payloads generalizing r with
  | nil => exact ⟨rfl, _, rfl, rfl, rfl⟩
  | cons payload rest ih =>
    obtain ⟨q, hq, hendpoint, hframer⟩ := exists_process_of_skip h payload
    have hpolicy : q.agent.endpoint.policy = .skip := by rw [hendpoint, h]
    obtain ⟨hrest, q', hq', hendpoint', hframer'⟩ := ih hpolicy
    refine ⟨?_, q', ?_, hendpoint'.trans hendpoint, by rw [hframer', hframer]⟩
    · rw [processed, hq]
      dsimp only
      rw [hrest]
    · rw [processAll, hq]
      exact hq'

theorem exists_feed_of_skip (h : r.agent.endpoint.policy = .skip) (piece : Bytes) :
    r.processedByFeed piece = (r.agent.framer.feed piece).ready ∧
      ∃ q : Running σ, r.feed piece = (none, q) ∧ q.agent.endpoint = r.agent.endpoint ∧
        q.agent.framer = (r.agent.framer.feed piece).drain.2 :=
  exists_processAll_of_skip (r := r.withFramer (r.agent.framer.feed piece)) h _

/-- **Two ways to the same payloads.** A driven run that skips malformed payloads processes what its
framer hands on when the same arrives. -/
theorem processedByDrive_eq (h : r.agent.endpoint.policy = .skip) (arrivals : List Arrival) :
    r.processedByDrive none arrivals =
      (r.agent.framer.stream arrivals).filterMap Except.toOption := by
  induction arrivals generalizing r with
  | nil =>
    rw [Framer.stream, filterMap_toOption_ok]
    exact (exists_processAll_of_skip (r := r.withFramer r.agent.framer.flush) h _).1
  | cons arrival arrivals ih =>
    cases arrival with
    | error failure => rfl
    | ok piece =>
      obtain ⟨hready, q, hq, hendpoint, hframer⟩ := exists_feed_of_skip h piece
      have hrest := ih (r := q) (by rw [hendpoint, h])
      have hdrive : r.processedByDrive none (.ok piece :: arrivals) =
          r.processedByFeed piece ++ q.processedByDrive none arrivals := by
        simp only [processedByDrive, processedByConsume, consume, hq, List.append_assoc]
        rfl
      have hstream : r.agent.framer.stream (.ok piece :: arrivals) =
          (r.agent.framer.feed piece).ready.map .ok ++
            (r.agent.framer.feed piece).drain.2.stream arrivals := rfl
      rw [hdrive, hready, hrest, hframer, hstream, List.filterMap_append,
        filterMap_toOption_ok]

end Running

/-! ## Agents -/

namespace Agent

/-- The payloads that are processed when a run is driven over pieces that the caller has. -/
def processedByStream (a : Agent σ) (params : RunParams) (waits : Option Nat)
    (arrivals : List Arrival) : List String :=
  match a.prepare params with
  | (.error _, _) => []
  | (.ok request, a) => (a.begin request).processedByDrive waits arrivals

/-- The payloads that are processed when a run is driven over what a transport delivers. -/
def processedByRun (a : Agent σ) (params : RunParams) (waits : Option Nat)
    (transport : Transport σ) : List String :=
  match a.prepare params with
  | (.error _, _) => []
  | (.ok request, a) =>
    let r := a.begin request
    match waits with
    | some 0 => []
    | _ =>
      let (opened, memory) := transport (a.transportRequest request.input) r.agent.memory
      let r := { r with agent := { r.agent with memory } }
      match opened with
      | .error _ => []
      | .ok arrivals => r.processedByDrive (waits.map (· - 1)) arrivals

variable {a b : Agent σ} {params : RunParams} {request : RunRequest}

theorem processedByStream_eq (hpolicy : a.endpoint.policy = .skip)
    (hprepare : a.prepare params = (.ok request, b)) (arrivals : List Arrival) :
    a.processedByStream params none arrivals = (Reception.ofArrivals none arrivals).payloads := by
  have hendpoint : b.endpoint = a.endpoint := by
    rw [← a.endpoint_prepare params, hprepare]
  have hbegin : (b.begin request).agent.endpoint.policy = .skip := by
    rw [← hpolicy, ← hendpoint]
    rfl
  have hdrive : (b.begin request).processedByDrive none arrivals =
      (({} : Framer).stream arrivals).filterMap Except.toOption :=
    Running.processedByDrive_eq hbegin arrivals
  rw [processedByStream, hprepare]
  dsimp only
  rw [hdrive, Framer.stream_eq_reception, filterMap_toOption]

end Agent

/-! ## Decoding and replaying -/

/-- The lines that number some payloads and say what they are. -/
def Decode.numbered (m : Moment) (payloads : List String) : List String :=
  payloads.mapIdx fun i payload ↦ s!"{column i} {describe m payload}"

namespace Replay

variable {s : Surroundings} {c : Config} {file : String} {a : Agent Unit}

/-- Nothing halts the run of a replay. -/
theorem exists_prepare_agent (h : agent s c file = .ok a) (params : RunParams) :
    ∃ request b, a.prepare params = (.ok request, b) := by
  obtain ⟨input, session, memory, hb⟩ := a.exists_absorb_assemble params
  simp only [Agent.prepare, hb, (agent_parts h).2.2]
  exact ⟨_, _, rfl⟩

/-- A replay that skips malformed payloads processes those of the whole capture. -/
theorem processedByRun_eq (h : agent s c file = .ok a) (hpolicy : a.endpoint.policy = .skip)
    {capture : Bytes} (hcapture : s.host.file file = some capture) (n : Nat) :
    a.processedByRun {} none (transport s.host file n) = Framer.payloads capture := by
  obtain ⟨request, b, hprepare⟩ := exists_prepare_agent h {}
  have hrun : a.processedByRun {} none (transport s.host file n) =
      a.processedByStream {} none ((capture.cut n).map .ok) := by
    rw [Agent.processedByRun, Agent.processedByStream, hprepare]
    dsimp only [transport]
    rw [hcapture]
    rfl
  rw [hrun, Agent.processedByStream_eq hpolicy hprepare, Reception.ofArrivals,
    Arrival.received_pieces, Bytes.flatten_cut]
  rfl

end Replay

/-- **The two ways agree.**

* Whatever arrives, a framed stream hands on the payloads of the bytes before the first failure that
  are complete by then, and after them the failure and nothing else. Without a failure it hands on
  the payloads of all bytes, with those that the end of the stream completes, as two line feeds
  would.
* A run that skips malformed payloads, and that no stage halts before it begins, processes these
  payloads in this order. It comes to the end to which the payloads and the failure bring it.
* For every capture, and whatever the size of the pieces, the payloads that are numbered when it is
  decoded are those that a replay processes. If there is no capture, there are none, and both fail.
  -/
theorem framing_drivers_agree :
    (∀ arrivals : List Arrival,
      (∃ pieces : List Bytes, arrivals = pieces.map .ok ∧
        ({} : Framer).stream arrivals =
          (EventStream.payloads (pieces.flatten ++ [0x0A, 0x0A])).map .ok) ∨
      ∃ (pieces : List Bytes) (failure : Failure) (later : List Arrival),
        arrivals = pieces.map .ok ++ .error failure :: later ∧
        ({} : Framer).stream arrivals =
          (EventStream.payloads pieces.flatten).map .ok ++ [.error failure]) ∧
    (∀ (σ : Type) (a b : Agent σ) (params : RunParams) (request : RunRequest)
      (arrivals : List Arrival),
      a.endpoint.policy = .skip → a.prepare params = (.ok request, b) →
        let payloads := a.processedByStream params none arrivals
        ∃ failure : Option Failure,
          ({} : Framer).stream arrivals = payloads.map .ok ++ failure.toList.map .error ∧
          a.runStream params none arrivals =
            (((b.begin request).driveOver { payloads, failure }).1,
              ((b.begin request).driveOver { payloads, failure }).2.agent)) ∧
    ∀ (s : Surroundings) (c : Config) (file : String) (a : Agent Unit) (n : Nat),
      Replay.agent s c file = .ok a → a.endpoint.policy = .skip →
        let payloads := a.processedByRun {} none (Replay.transport s.host file n)
        match s.host.file file with
        | some capture =>
          ({} : Framer).stream [(.ok capture : Arrival)] = payloads.map .ok ∧
            Decode.report s file = .ofLines (Decode.numbered s.clock.present payloads)
        | none => payloads = [] ∧ Decode.report s file = .failed := by
  refine ⟨fun arrivals ↦ ?_, fun σ a b params request arrivals hpolicy hprepare ↦ ?_,
    fun s c file a n ha hpolicy ↦ ?_⟩
  · rcases Framer.stream_cases arrivals with ⟨pieces, rfl⟩ | ⟨pieces, failure, later, rfl⟩
    · exact .inl ⟨pieces, rfl, by rw [Framer.stream_map_ok, ← Framer.payloads_eq]; rfl⟩
    · exact .inr ⟨pieces, failure, later, rfl, Framer.stream_failing pieces failure later⟩
  · refine ⟨(Reception.ofArrivals none arrivals).failure, ?_, ?_⟩
    · rw [Agent.processedByStream_eq hpolicy hprepare]
      exact Framer.stream_eq_reception arrivals
    · rw [Agent.processedByStream_eq hpolicy hprepare, Agent.runStream, hprepare]
      exact Running.drive_eq_driveOver none arrivals rfl
  · obtain ⟨request, b, hprepare⟩ := Replay.exists_prepare_agent ha {}
    cases hcapture : s.host.file file with
    | some capture =>
      dsimp only
      rw [Replay.processedByRun_eq ha hpolicy hcapture, Decode.report, hcapture]
      refine ⟨?_, rfl⟩
      have hstream : ({} : Framer).stream [(.ok capture : Arrival)] =
          (Framer.payloads [capture].flatten).map .ok := Framer.stream_map_ok {} [capture]
      rwa [List.flatten_singleton] at hstream
    | none =>
      rw [Decode.report, hcapture]
      refine ⟨?_, rfl⟩
      rw [Agent.processedByRun, hprepare]
      dsimp only [Replay.transport]
      rw [hcapture]

/-- A payload that is not JSON, a cut between a carriage return and its line feed, and a payload in
progress, which a failure discards and the end of a capture completes. -/
theorem framing_drivers_agree_cut :
    let before : Bytes := [0x64, 0x61, 0x74, 0x61, 0x3A, 0x78, 0x0D]
    let after : Bytes := [0x0A, 0x0A, 0x64, 0x61, 0x74, 0x61, 0x3A, 0x31]
    let arrivals : List Arrival :=
      [.ok before, .ok after, .error (.io "lost"), .ok [0x0A, 0x0A]]
    let a : Agent Nat :=
      { countingAgent with endpoint := { countingAgent.endpoint with policy := .skip } }
    let s : Surroundings :=
      { host := { file := fun _ ↦ some (before ++ after), env := fun _ ↦ none }, ids := .sequential,
        clock := countingAgent.clock }
    a.endpoint.policy = .skip ∧ (∃ request b, a.prepare {} = (.ok request, b)) ∧
      a.processedByStream {} none arrivals = ["x"] ∧
      ∃ b, Replay.agent s {} "c" = .ok b ∧ b.endpoint.policy = .skip ∧
        b.processedByRun {} none (Replay.transport s.host "c" 3) = ["x", "1"] := by
  intro before after arrivals a s
  obtain ⟨-, hruns, hreplays⟩ := framing_drivers_agree
  have hprepare : ∃ request b, a.prepare {} = (.ok request, b) := ⟨_, _, rfl⟩
  have hreplay : ∃ b, Replay.agent s {} "c" = .ok b ∧ b.endpoint.policy = .skip := by
    have hurl : Text.trimString (Replay.blueprint s {} "c").url ≠ "" := by decide +kernel
    rw [Replay.agent, Blueprint.build, if_neg hurl]
    exact ⟨_, rfl, rfl⟩
  refine ⟨rfl, hprepare, ?_, ?_⟩
  · obtain ⟨request, b, hb⟩ := hprepare
    obtain ⟨failure, hstream, -⟩ := hruns Nat a b {} request arrivals rfl hb
    have hframed : ({} : Framer).stream arrivals = [.ok "x", .error (.io "lost")] := by
      decide +kernel
    have htaken := congrArg (List.filterMap Except.toOption) (hframed.symm.trans hstream)
    rw [filterMap_toOption] at htaken
    exact htaken.symm
  · obtain ⟨b, hb, hpolicy⟩ := hreplay
    have hstream := (hreplays s {} "c" b 3 hb hpolicy).1
    have hframed : ({} : Framer).stream [(.ok (before ++ after) : Arrival)] =
        [.ok "x", .ok "1"] := by
      decide +kernel
    refine ⟨b, hb, hpolicy, ?_⟩
    have htaken := congrArg (List.filterMap Except.toOption) (hframed.symm.trans hstream)
    rw [filterMap_toOption_ok] at htaken
    exact htaken.symm

end AgentSession
