import AgentSession.CommandLine.Replay
import AgentSession.Proofs.Agent.Record
/-!
# The delivery of an answer

What a run leads to depends on the bytes of the answer alone: not on the pieces they come in, and
not on when they come.

## Pieces

Over two lists of pieces with the same bytes a run comes to the same end, and to the same run, for
arbitrary subscribers and stages (`Running.complete_congr`). As this holds of the agent that keeps a
record as well, subscribers and stages are called in the same way.

## Times

Subscribers and stages may look at the clock, and then what they do may depend on it. If they ignore
it, a run comes to the same end with every clock that brings the same fresh identifiers, and the
calls differ in nothing but the times that they are shown (`Agent.IgnoresTime.sameAgent`).
-/

namespace AgentSession

variable {σ τ : Type}

/-! ## Ignoring the time -/

/-- Times that are not compared. -/
def Correspondence.timeless (σ : Type) : Correspondence σ σ where
  time _ _ := True
  memory := Eq
  time_refl _ := trivial

/-- A subscriber does not look at the clock. -/
def Subscriber.IgnoresTime (b : Subscriber σ) : Prop :=
  (Correspondence.timeless σ).SameSubscriber b b

/-- A stage does not look at the clock. -/
def Stage.IgnoresTime (g : Stage σ) : Prop := (Correspondence.timeless σ).SameStage g g

/-- Clocks that bring the same fresh identifiers. -/
def Clock.SameIds (c c' : Clock) : Prop :=
  ∀ n, (c.moment (c.passed + n)).freshId = (c'.moment (c'.passed + n)).freshId

namespace Agent

/-- No subscriber and no stage of an agent looks at the clock. -/
structure IgnoresTime (a : Agent σ) : Prop where
  subscribers : ∀ b ∈ a.subscribers.values, b.IgnoresTime
  stages : ∀ g ∈ a.stages.values, g.IgnoresTime

/-- The agent with another clock. -/
def withClock (a : Agent σ) (clock : Clock) : Agent σ := { a with clock }

variable {a : Agent σ} {clock : Clock}

theorem IgnoresTime.sameAgent (h : a.IgnoresTime) (hids : a.clock.SameIds clock) :
    (Correspondence.timeless σ).SameAgent a (a.withClock clock) where
  endpoint := rfl
  session := rfl
  subscribers := List.forall₂_same.2 h.subscribers
  stages := List.forall₂_same.2 h.stages
  framer := rfl
  clock := ⟨fun _ ↦ trivial, hids⟩
  memory := rfl

theorem IgnoresTime.recording_sameAgent (h : a.IgnoresTime) (hids : a.clock.SameIds clock) :
    (Correspondence.timeless σ).recorded.SameAgent a.recording (a.withClock clock).recording := by
  refine (h.sameAgent hids).recording ?_ ?_
  · exact List.forall₂_same.2 fun entry hentry ↦
      ⟨rfl, h.subscribers entry.2 (List.mem_map_of_mem hentry)⟩
  · exact List.forall₂_same.2 fun entry hentry ↦
      ⟨rfl, h.stages entry.2 (List.mem_map_of_mem hentry)⟩

end Agent

/-! ## Transports -/

/-- The same failure, or pieces with the same bytes. -/
inductive SameDelivery : Except Failure (List Arrival) → Except Failure (List Arrival) → Prop where
  | failed (failure : Failure) : SameDelivery (.error failure) (.error failure)
  | cut {ps qs : List Bytes} (h : ps.flatten = qs.flatten) :
    SameDelivery (.ok (ps.map .ok)) (.ok (qs.map .ok))

namespace Correspondence

variable {C : Correspondence σ τ}

/-- Transports that deliver the same bytes to what corresponds. -/
def SameTransport (C : Correspondence σ τ) (t : Transport σ) (t' : Transport τ) : Prop :=
  ∀ q m m', C.memory m m' → SameDelivery (t q m).1 (t' q m').1 ∧ C.memory (t q m).2 (t' q m').2

theorem SameRun.giveUp {r : Running σ} {r' : Running τ} (h : C.SameRun r r') (failure : Failure) :
    C.SameReply (r.giveUp failure) (r'.giveUp failure) := by
  rw [Running.giveUp_eq_settle, Running.giveUp_eq_settle]
  obtain ⟨houtcome, h⟩ := h.settle failure
  exact ⟨houtcome, h.agent⟩

theorem SameRun.drive {r : Running σ} {r' : Running τ} (h : C.SameRun r r')
    (hr : r.agent.framer.ready = []) {ps qs : List Bytes} (hpq : ps.flatten = qs.flatten) :
    C.SameReply (r.drive none (ps.map .ok)) (r'.drive none (qs.map .ok)) := by
  rw [Running.drive_none_eq_complete, Running.drive_none_eq_complete,
    Running.complete_congr hr hpq]
  obtain ⟨houtcome, h⟩ := h.complete qs
  exact ⟨houtcome, h.agent⟩

/-- Corresponding agents that the same bytes are delivered to come to the same end. -/
theorem SameAgent.run {a : Agent σ} {a' : Agent τ} (h : C.SameAgent a a') (params : RunParams)
    {t : Transport σ} {t' : Transport τ} (ht : C.SameTransport t t') :
    C.SameReply (a.run params none t) (a'.run params none t') := by
  obtain ⟨request, b, b', hb, hb', h⟩ := (h.prepare params).exists
  simp only [Agent.run, hb, hb']
  rcases request with failure | request
  · exact ⟨rfl, h⟩
  · have hbegin := h.begin request
    have hrequest : b.transportRequest request.input = b'.transportRequest request.input := by
      simp only [Agent.transportRequest, h.endpoint]
    have hopened := ht (b'.transportRequest request.input) _ _ hbegin.agent.memory
    dsimp only
    rw [hrequest]
    rcases hx : t (b'.transportRequest request.input) (b.begin request).agent.memory with
      ⟨opened, m⟩
    rcases hy : t' (b'.transportRequest request.input) (b'.begin request).agent.memory with
      ⟨opened', m'⟩
    rw [hx, hy] at hopened
    obtain ⟨hdelivery, hmemory⟩ := hopened
    have hrun := hbegin.remember hmemory
    -- a run that has just begun has no payloads waiting, which is all that the cut needs
    cases hdelivery with
    | failed failure => exact hrun.giveUp failure
    | cut hpq => exact hrun.drive rfl hpq

end Correspondence

/-! ## Replaying -/

namespace Replay

theorem ignoresTime_logging : (Stage.logging : Stage σ).IgnoresTime where
  admitsRun _ hs := ⟨rfl, hs.memory⟩
  onRequest _ hs := ⟨rfl, hs⟩
  onResponse _ hs := ⟨rfl, hs⟩
  onError _ hs := ⟨rfl, hs⟩
  admitsEvent _ hs := ⟨rfl, hs.memory⟩
  beforeEvent _ hs := ⟨.nil, hs⟩
  onEvent he hs := ⟨.some he, hs⟩
  afterEvent _ hs := ⟨.nil, hs⟩

theorem agent_withClock (s : Surroundings) (clock : Clock) (c : Config) (file : String) :
    agent { s with clock } c file = (agent s c file).map (·.withClock clock) := by
  have hblueprint : blueprint { s with clock } c file = blueprint s c file := rfl
  simp only [agent, Blueprint.build, hblueprint]
  split <;> rfl

/-- The agent of a replay has no subscribers, and a logging stage alone. -/
theorem agent_parts {s : Surroundings} {c : Config} {file : String} {a : Agent Unit}
    (h : agent s c file = .ok a) :
    a.clock = s.clock ∧ a.subscribers.values = [] ∧ a.stages.values = [.logging] := by
  have hagent (b : Blueprint) {a : Agent Unit} (h : b.build s.clock () = .ok a) :
      a.clock = s.clock ∧ a.subscribers.values = [] ∧ a.stages = {} := by
    unfold Blueprint.build at h
    split at h
    · cases h
    · obtain rfl := Except.ok.inj h
      exact ⟨rfl, rfl, rfl⟩
  unfold agent at h
  cases hb : (blueprint s c file).build s.clock () with
  | error failure =>
    rw [hb] at h
    cases h
  | ok b =>
    rw [hb] at h
    obtain rfl := Except.ok.inj h
    obtain ⟨hclock, hsubscribers, hstages⟩ := hagent _ hb
    exact ⟨hclock, hsubscribers, by rw [hstages]; rfl⟩

theorem ignoresTime_agent {s : Surroundings} {c : Config} {file : String} {a : Agent Unit}
    (h : agent s c file = .ok a) : a.clock = s.clock ∧ a.IgnoresTime := by
  obtain ⟨hclock, hsubscribers, hstages⟩ := agent_parts h
  refine ⟨hclock, ⟨fun b hb ↦ ?_, fun g hg ↦ ?_⟩⟩
  · rw [hsubscribers] at hb
    cases hb
  · rw [hstages] at hg
    obtain rfl := List.mem_singleton.1 hg
    exact ignoresTime_logging

theorem sameTransport (host : Host) (file : String) (n m : Nat) :
    (Correspondence.timeless σ).SameTransport (transport host file n) (transport host file m) := by
  intro q p p' hp
  unfold transport
  cases host.file file with
  | none => exact ⟨.failed _, hp⟩
  | some capture =>
    exact ⟨.cut ((Bytes.flatten_cut n capture).trans (Bytes.flatten_cut m capture).symm), hp⟩

/-- What a replay prints does not depend on the size of the pieces, nor on the clock. -/
theorem printed_eq (s : Surroundings) {clock : Clock} (hids : s.clock.SameIds clock) (file : String)
    (n m : Nat) (path : Option String) (json : Bool) :
    printed s file n path json = printed { s with clock } file m path json := by
  unfold printed
  simp only [agent_withClock, bind, Except.bind]
  rcases config s.host path with failure | c
  · rfl
  · dsimp only
    rcases ha : agent s c file with failure | a
    · rfl
    · obtain ⟨hclock, ha⟩ := ignoresTime_agent ha
      rw [← hclock] at hids
      obtain ⟨outcome, b, b', hb, hb', hsame⟩ :=
        ((ha.sameAgent hids).run {} (sameTransport s.host file n m)).exists
      simp only [Except.map, hb, hb']
      cases outcome with
      | finished result => simp only [hsame.session]
      | suppressed => rfl
      | failed failure => rfl

end Replay

/-! ## The delivery does not matter -/

/-- **A run depends on the bytes of the answer, and not on their delivery.** Let an agent with
arbitrary subscribers and stages begin a run, and let two lists of pieces have the same bytes.

* The run comes to the same end over both, and is the same run afterwards: the same session, notes,
  count of events and memory.
* The subscribers and stages are called in the same way, with the same arguments.
* If they ignore the time, then also with another clock that brings the same fresh identifiers the
  run comes to the same end and leaves the same behind, and the calls are the same but for times.
* A replay prints the same for all sizes of pieces, and with every such clock. -/
theorem Agent.complete_eq_of_flatten_eq (a : Agent σ) (request : RunRequest) {ps qs : List Bytes}
    (h : ps.flatten = qs.flatten) :
    (a.begin request).complete ps = (a.begin request).complete qs ∧
    a.calls request ps = a.calls request qs ∧
    (∀ clock, a.clock.SameIds clock → a.IgnoresTime →
      let run := (a.begin request).complete ps
      let run' := ((a.withClock clock).begin request).complete qs
      run.1 = run'.1 ∧ run.2.run = run'.2.run ∧ run.2.agent.session = run'.2.agent.session ∧
        run.2.agent.memory = run'.2.agent.memory ∧
        List.Forall₂ (Correspondence.timeless σ).SameCall (a.calls request ps)
          ((a.withClock clock).calls request qs)) ∧
    ∀ (s : Surroundings) (clock : Clock), s.clock.SameIds clock →
      ∀ (file : String) (n m : Nat) (path : Option String) (json : Bool),
        Replay.report s file n path json = Replay.report { s with clock } file m path json := by
  have hcomplete : (a.begin request).complete ps = (a.begin request).complete qs :=
    Running.complete_congr rfl h
  -- an agent that keeps a record is an agent, so the cut does not matter to the record either
  have hrecording : (a.recording.begin request).complete ps =
      (a.recording.begin request).complete qs := Running.complete_congr rfl h
  have hcalls : a.calls request ps = a.calls request qs := by
    rw [Agent.calls, hrecording, ← Agent.calls]
  refine ⟨hcomplete, hcalls, fun clock hids ha ↦ ?_, fun s clock hids file n m path json ↦ ?_⟩
  · obtain ⟨houtcome, hagent, hrun⟩ := ((ha.sameAgent hids).begin request).complete qs
    obtain ⟨-, hrecorded, -⟩ := ((ha.recording_sameAgent hids).begin request).complete qs
    dsimp only
    rw [hcomplete, hcalls]
    exact ⟨houtcome, hrun, hagent.session, hagent.memory, hrecorded.memory.2⟩
  · rw [Replay.report, Replay.report, Replay.printed_eq s hids]

/-- An agent whose only subscriber counts the events, and that breaks off at a malformed payload. -/
def countingAgent : Agent Nat where
  endpoint := { url := "u", agentId := none, headers := [], timeoutMs := 0, policy := .abort }
  session := {}
  subscribers := { entries := [(1, { onEvent := fun _ _ n ↦ (.ok .nothing, n + 1) })], issued := 1 }
  stages := { entries := [(1, .logging)], issued := 1 }
  clock := { moment := fun n ↦ { now := n, freshId := fun _ ↦ "m" } }
  memory := 0

theorem countingAgent_ignoresTime : countingAgent.IgnoresTime where
  subscribers b hb := by
    obtain rfl := List.mem_singleton.1 hb
    exact ⟨fun _ _ hm ↦ ⟨rfl, congrArg (· + 1) hm⟩, fun _ _ _ hm ↦ ⟨rfl, hm⟩, fun _ hm ↦ hm⟩
  stages g hg := by
    obtain rfl := List.mem_singleton.1 hg
    exact Replay.ignoresTime_logging

/-- The cut falls between the two bytes of a character, and between a carriage return and its line
feed; the other clock stands still. -/
theorem complete_eq_of_flatten_eq_malformed :
    let request : RunRequest :=
      { input := { threadId := "t", runId := "r", state := .null, messages := [] } }
    let ps : List Bytes := [[0x64, 0x61, 0x74, 0x61, 0x3A, 0xC3], [], [0xA9, 0x0D], [0x0A, 0x0A]]
    let qs : List Bytes := [[0x64, 0x61, 0x74, 0x61, 0x3A, 0xC3, 0xA9, 0x0D, 0x0A, 0x0A]]
    let still : Clock := { moment := fun _ ↦ { now := 0, freshId := fun _ ↦ "m" } }
    ps.flatten = qs.flatten ∧ countingAgent.clock.SameIds still ∧
      ((countingAgent.begin request).complete ps).1 = .failed (.parse Running.payloadNotJson) ∧
      (((countingAgent.withClock still).begin request).complete qs).1 =
        .failed (.parse Running.payloadNotJson) := by
  intro request ps qs still
  have h := countingAgent.complete_eq_of_flatten_eq request (show ps.flatten = qs.flatten from rfl)
  have hps : ((countingAgent.begin request).complete ps).1 =
      .failed (.parse Running.payloadNotJson) := by decide +kernel
  refine ⟨rfl, fun _ ↦ rfl, hps, ?_⟩
  rw [← (h.2.2.1 still (fun _ ↦ rfl) countingAgent_ignoresTime).1, hps]

end AgentSession
