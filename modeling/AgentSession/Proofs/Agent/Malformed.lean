import AgentSession.Proofs.Agent.Preparation
import AgentSession.Proofs.Agent.Reception
import AgentSession.Proofs.Agent.Record
import AgentSession.Proofs.Event.Lenient
/-!
# Malformed payloads

A payload is malformed if it is no event: if it is not JSON, or not an object, or names no type. The
policy of the agent says what a run does about it.

* Under `MalformedPolicy.skip` a malformed payload might as well not be there.
* Under `MalformedPolicy.abort` a run without malformed payloads is the same as under the other
  policy. With one, it is the same up to the first of them, and then fails with a failure of the
  kind `Failure.Kind.parse`.

Both are shown for runs over what they receive, and so hold of payloads that only the end of the
stream completes. They hold of the agent that keeps a record as well, and so of the calls of
subscribers and stages.
-/

namespace AgentSession

variable {σ : Type}

namespace Event

/-- Whether a payload is no event: it is not JSON, or not an object, or has no text as its type. -/
def isMalformed (payload : String) : Bool := ((Json.parse payload).bind typeName?).isNone

end Event

namespace Running

variable {r : Running σ} {payload : String} {payloads : List String} {failure : Option Failure}

/-! ## One payload -/

/-- A payload that is no event cannot be read, and that is a failure to parse it. -/
theorem exists_decode_error (h : Event.isMalformed payload = true) (m : Moment) :
    ∃ failure, decode m payload = .error failure ∧ failure.kind = .parse := by
  rw [Event.isMalformed, Option.isNone_iff_eq_none] at h
  rw [decode]
  cases hparse : Json.parse payload with
  | none => exact ⟨_, rfl, rfl⟩
  | some doc =>
    rw [hparse, Option.bind_some] at h
    obtain ⟨error, herror⟩ := Event.exists_ofJson_error h m
    exact ⟨.protocol error, by simp only [herror, Except.mapError], rfl⟩

theorem exists_decode_ok (h : Event.isMalformed payload = false) (m : Moment) :
    ∃ e, decode m payload = .ok e := by
  rw [Event.isMalformed, Option.isNone_eq_false_iff, Option.isSome_iff_exists] at h
  obtain ⟨name, hname⟩ := h
  obtain ⟨doc, hparse, hdoc⟩ := Option.bind_eq_some_iff.1 hname
  obtain ⟨e, he⟩ := Event.exists_ofJson_of_typeName? hdoc m
  exact ⟨e, by simp only [decode, hparse, he, Except.mapError]⟩

/-- The run in progress of an agent with a policy. -/
def withPolicy (r : Running σ) (policy : MalformedPolicy) : Running σ :=
  { r with agent := { r.agent with endpoint := { r.agent.endpoint with policy } } }

theorem takeEvent_withPolicy (r : Running σ) (policy : MalformedPolicy) (e : Event) :
    (r.withPolicy policy).takeEvent e = (r.takeEvent e).withPolicy policy := by
  have h : (r.withPolicy policy).takeEvent e =
      (r.takeEvent e).equip { r.agent.endpoint with policy } r.agent.framer :=
    r.takeEvent_equip { r.agent.endpoint with policy } r.agent.framer e
  rw [h, ← takeEvent_endpoint r e, ← takeEvent_framer r e]
  rfl

/-- A payload that is an event is processed in the same way under every policy. -/
theorem exists_process_withPolicy (h : Event.isMalformed payload = false) (r : Running σ) :
    ∃ r' : Running σ, ∀ policy, (r.withPolicy policy).process payload =
      .ok (r'.withPolicy policy) := by
  obtain ⟨e, he⟩ := exists_decode_ok h r.agent.clock.present
  refine ⟨r.takeEvent e, fun policy ↦ ?_⟩
  rw [process, show (r.withPolicy policy).agent.clock = r.agent.clock from rfl, he]
  exact congrArg Except.ok (takeEvent_withPolicy r policy e)

theorem process_skip_of_malformed (h : Event.isMalformed payload = true) (r : Running σ) :
    (r.withPolicy .skip).process payload = .ok (r.withPolicy .skip) := by
  obtain ⟨failure, hfailure, -⟩ := exists_decode_error h r.agent.clock.present
  rw [process, show (r.withPolicy .skip).agent.clock = r.agent.clock from rfl, hfailure]
  rfl

theorem process_abort_of_malformed (h : Event.isMalformed payload = true) (r : Running σ) :
    ∃ failure, failure.kind = .parse ∧
      (r.withPolicy .abort).process payload = .error failure := by
  obtain ⟨failure, hfailure, hkind⟩ := exists_decode_error h r.agent.clock.present
  refine ⟨failure, hkind, ?_⟩
  rw [process, show (r.withPolicy .abort).agent.clock = r.agent.clock from rfl, hfailure]
  rfl

/-! ## Payloads one after the other -/

/-- Payloads that are events are all processed, in the same way under every policy. -/
theorem exists_processEach_withPolicy (h : ∀ p ∈ payloads, Event.isMalformed p = false)
    (r : Running σ) :
    ∃ r' : Running σ, ∀ policy, (r.withPolicy policy).processEach payloads =
      (none, r'.withPolicy policy) := by
  induction payloads generalizing r with
  | nil => exact ⟨r, fun policy ↦ rfl⟩
  | cons payload rest ih =>
    obtain ⟨hpayload, hrest⟩ := List.forall_mem_cons.1 h
    obtain ⟨r₁, hr₁⟩ := exists_process_withPolicy hpayload r
    obtain ⟨r₂, hr₂⟩ := ih hrest r₁
    refine ⟨r₂, fun policy ↦ ?_⟩
    rw [processEach, hr₁ policy]
    exact hr₂ policy

/-- Skipping malformed payloads is processing the others. -/
theorem processEach_skip_filter (r : Running σ) (payloads : List String) :
    (r.withPolicy .skip).processEach payloads =
      (r.withPolicy .skip).processEach (payloads.filter fun p ↦ !Event.isMalformed p) := by
  induction payloads generalizing r with
  | nil => rfl
  | cons payload rest ih =>
    cases hpayload : Event.isMalformed payload with
    | true =>
      have hfilter : (payload :: rest).filter (fun p ↦ !Event.isMalformed p) =
          rest.filter fun p ↦ !Event.isMalformed p :=
        List.filter_cons_of_neg (by simp [hpayload])
      rw [hfilter, processEach, process_skip_of_malformed hpayload]
      exact ih r
    | false =>
      have hfilter : (payload :: rest).filter (fun p ↦ !Event.isMalformed p) =
          payload :: rest.filter fun p ↦ !Event.isMalformed p :=
        List.filter_cons_of_pos (by simp [hpayload])
      obtain ⟨r', hr'⟩ := exists_process_withPolicy hpayload r
      rw [hfilter, processEach, processEach, hr' .skip]
      exact ih r'

/-! ## Runs over what they receive -/

theorem settle_withPolicy (r : Running σ) (policy : MalformedPolicy) (failure : Failure) :
    (r.withPolicy policy).settle failure =
      ((r.settle failure).1, (r.settle failure).2.withPolicy policy) := by
  have hstages : (r.withPolicy policy).agent.stages = r.agent.stages := rfl
  have hscene : (r.withPolicy policy).scene = r.scene := rfl
  rw [settle_eq, settle_eq, hstages, hscene]
  rcases Chain.error r.agent.stages.values failure r.scene with ⟨_ | failure, scene⟩
  · rfl
  · rfl

/-- What a run does about malformed payloads under the two policies. -/
structure HandlesMalformed (r : Running σ) : Prop where
  /-- Where malformed payloads are skipped, they might as well not be there. -/
  skip : ∀ x : Reception, (r.withPolicy .skip).driveOver x =
    (r.withPolicy .skip).driveOver
      { x with payloads := x.payloads.filter fun p ↦ !Event.isMalformed p }
  /-- Where there is no malformed payload, the policy does not matter. -/
  abort_sound : ∀ x : Reception, (∀ p ∈ x.payloads, Event.isMalformed p = false) →
    (r.withPolicy .abort).driveOver x =
      (((r.withPolicy .skip).driveOver x).1, ((r.withPolicy .skip).driveOver x).2.withPolicy .abort)
  /-- Otherwise the payloads before the first malformed one are processed as they are where it is
  skipped. Then the run fails, and the stages are shown a failure to parse. -/
  abort_malformed : ∀ (before after : List String) (bad : String) (cut : Option Failure),
    (∀ p ∈ before, Event.isMalformed p = false) → Event.isMalformed bad = true →
    ∃ (q : Running σ) (failure : Failure), failure.kind = .parse ∧
      (r.withPolicy .skip).processEach before = (none, q) ∧
      (r.withPolicy .abort).driveOver { payloads := before ++ bad :: after, failure := cut } =
        (q.withPolicy .abort).afterFailure
          (Chain.error q.agent.stages.values failure q.scene)

theorem driveOver_abort_of_sound (r : Running σ) {x : Reception}
    (h : ∀ p ∈ x.payloads, Event.isMalformed p = false) :
    (r.withPolicy .abort).driveOver x =
      (((r.withPolicy .skip).driveOver x).1,
        ((r.withPolicy .skip).driveOver x).2.withPolicy .abort) := by
  obtain ⟨q, hq⟩ := exists_processEach_withPolicy h r
  rw [driveOver, driveOver, hq .abort, hq .skip]
  cases x.failure with
  | none => rfl
  | some failure =>
    have hskip := settle_withPolicy q .skip failure
    have habort := settle_withPolicy q .abort failure
    dsimp only
    rw [hskip, habort]
    rfl

theorem driveOver_abort_of_malformed (r : Running σ) {before after : List String} {bad : String}
    {cut : Option Failure} (hbefore : ∀ p ∈ before, Event.isMalformed p = false)
    (hbad : Event.isMalformed bad = true) :
    ∃ (q : Running σ) (failure : Failure), failure.kind = .parse ∧
      (r.withPolicy .skip).processEach before = (none, q) ∧
      (r.withPolicy .abort).driveOver { payloads := before ++ bad :: after, failure := cut } =
        (q.withPolicy .abort).settle failure := by
  obtain ⟨q, hq⟩ := exists_processEach_withPolicy hbefore r
  obtain ⟨failure, hkind, hfailure⟩ := process_abort_of_malformed hbad q
  refine ⟨q.withPolicy .skip, failure, hkind, hq .skip, ?_⟩
  -- the payloads after the malformed one are not reached
  have hrest : (q.withPolicy .abort).driveOver { payloads := bad :: after, failure := cut } =
      (q.withPolicy .abort).settle failure := by
    rw [driveOver, processEach, hfailure]
  rw [driveOver_append, hq .abort]
  exact hrest

theorem handlesMalformed (r : Running σ) : r.HandlesMalformed where
  skip x := by
    rw [driveOver, driveOver, processEach_skip_filter]
  abort_sound x h := r.driveOver_abort_of_sound h
  abort_malformed before after bad cut hbefore hbad := by
    obtain ⟨q, failure, hkind, hq, hover⟩ := r.driveOver_abort_of_malformed hbefore hbad
    exact ⟨q, failure, hkind, hq, hover.trans (settle_eq _ failure)⟩

end Running

/-! ## Agents under a policy -/

namespace Agent

/-- The agent under a policy for malformed payloads. -/
def withPolicy (a : Agent σ) (policy : MalformedPolicy) : Agent σ :=
  { a with endpoint := { a.endpoint with policy } }

/-- Preparing a run does not look at the policy. -/
theorem prepare_withPolicy (a : Agent σ) (params : RunParams) (policy : MalformedPolicy) :
    (a.withPolicy policy).prepare params =
      ((a.prepare params).1, (a.prepare params).2.withPolicy policy) := by
  have habsorb : (a.withPolicy policy).absorb params = (a.absorb params).withPolicy policy := by
    rw [absorb_eq, absorb_eq]
    rfl
  have hid (a : Agent σ) (kind : IdKind) (given : Option String) :
      (a.withPolicy policy).idOr kind given =
        ((a.idOr kind given).1, (a.idOr kind given).2.withPolicy policy) := by
    cases given with
    | none => rfl
    | some id => rfl
  have hassemble (a : Agent σ) : (a.withPolicy policy).assemble params =
      ((a.assemble params).1, (a.assemble params).2.withPolicy policy) := by
    simp only [assemble, hid]
    rfl
  obtain ⟨input, b, hb⟩ : ∃ input b, (a.absorb params).assemble params = (input, b) :=
    ⟨_, _, rfl⟩
  have hstages : (b.withPolicy policy).stages = b.stages := rfl
  have hscene : (b.withPolicy policy).scene none [] = b.scene none [] := rfl
  simp only [prepare, habsorb, hassemble, hb, hstages, hscene]
  split
  · rfl
  · rfl

theorem opened_withPolicy (a : Agent σ) (request : RunRequest) (waits : Option Nat)
    (t : Transport σ) (policy : MalformedPolicy) :
    (a.withPolicy policy).opened request waits t =
      ((a.opened request waits t).1, (a.opened request waits t).2.withPolicy policy) := by
  rcases waits with _ | _ | n
  · rfl
  · rfl
  · rfl

/-- **Malformed payloads.** Let an agent with arbitrary subscribers and stages prepare a run, and
let a transport be asked. What the run then receives does not depend on the policy, and the run ends
as it does over that, where

* malformed payloads that are skipped might as well not be there,
* the policy does not matter if there are none, and
* otherwise the payloads before the first one are processed as if it were skipped, and then the
  stages are shown a failure to parse, as which the run fails.

As this holds of the agent that keeps a record as well, it holds of the calls of subscribers and
stages. Among the payloads are those that the end of the stream completes. -/
theorem run_malformed (a : Agent σ) (params : RunParams) (waits : Option Nat) (t : Transport σ) :
    match a.prepare params with
    | (.error failure, b) =>
      ∀ policy, (a.withPolicy policy).run params waits t = (.failed failure, b.withPolicy policy)
    | (.ok request, b) =>
      let (x, r) := b.opened request waits t
      let (recordedX, recorded) := b.recording.opened request waits t.recording
      (∀ policy, (a.withPolicy policy).run params waits t =
        (((r.withPolicy policy).driveOver x).1, ((r.withPolicy policy).driveOver x).2.agent)) ∧
      r.HandlesMalformed ∧ recordedX = x ∧ recorded.HandlesMalformed := by
  have hrun (policy : MalformedPolicy) := (a.withPolicy policy).run_eq_driveOver params waits t
  simp only [prepare_withPolicy] at hrun
  obtain ⟨prepared, b, hb⟩ : ∃ prepared b, a.prepare params = (prepared, b) := ⟨_, _, rfl⟩
  simp only [hb] at hrun ⊢
  cases prepared with
  | error failure => exact hrun
  | ok request =>
    simp only [opened_withPolicy] at hrun
    have hreceived := ((Correspondence.sameAgent_recording b).opened request waits t).1
    exact ⟨hrun, Running.handlesMalformed _, hreceived, Running.handlesMalformed _⟩

end Agent

end AgentSession
