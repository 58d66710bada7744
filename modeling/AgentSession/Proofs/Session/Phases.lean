import AgentSession.Proofs.Agent.Record
import AgentSession.Proofs.Session.Operation
import AgentSession.Proofs.Session.Rounds
/-!
# The phases of handling an event

An event is handled in two rounds, with its effect on the session between them. The subscribers are
asked about the event in general; if that does not end it, the event is applied and they are told
of it; and if that does not fail, they are asked about what the event says. Which subscribers are
called in all this, and what they are shown, is told by subscribers that keep a record of their
calls (`Session.handle_recording`).

The memory of such a record starts empty and only grows, so each round adds to it a beginning of the
list of all subscribers.
-/

namespace AgentSession

variable {σ : Type}

/-- The subscribers with their numbers, noting every call. -/
def Subscriber.recordings (bs : List (Nat × Subscriber σ)) : List (Subscriber (Recorded σ)) :=
  bs.map fun b ↦ b.2.recording b.1

/-- What comes of a round, with a record of calls. -/
def Round.recorded (r : Round σ) (calls : List NotedCall) : Round (Recorded σ) :=
  ⟨r.asked, r.ended, r.outcome, r.memory, calls⟩

/-- The calls of the subscribers that are asked in a round. -/
def Round.calls (r : Round σ) (bs : List (Nat × Subscriber σ)) (call : SubscriberCall) :
    List NotedCall :=
  (bs.take r.asked).map fun b ↦ .subscriber b.1 call

/-- The calls in which all subscribers are told of something, and then of the next thing. -/
def NotedCall.tellings (bs : List (Nat × Subscriber σ)) (notices : List Notice) : List NotedCall :=
  notices.flatMap fun notice ↦ bs.map fun b ↦ .subscriber b.1 (.notify notice)

namespace Subscriber

variable {call : SubscriberCall} {ask : Subscriber σ → σ → Answer σ}
  {askRecorded : Subscriber (Recorded σ) → Recorded σ → Answer (Recorded σ)}

/-- A round of subscribers that keep a record is the same round, and the record grows by the calls
of those that are asked. -/
theorem round_recordings
    (hask : ∀ n b memory calls, askRecorded (b.recording n) (memory, calls) =
      Recorded.answer (ask b memory) (calls ++ [.subscriber n call]))
    (bs : List (Nat × Subscriber σ)) (memory : σ) (calls : List NotedCall) :
    let r := round ask (bs.map Prod.snd) memory
    round askRecorded (recordings bs) (memory, calls) = r.recorded (calls ++ r.calls bs call) := by
  induction bs generalizing memory calls with
  | nil => exact congrArg (Round.recorded (round ask [] memory)) (List.append_nil calls).symm
  | cons b bs ih =>
    have hanswer : askRecorded (b.2.recording b.1) (memory, calls) =
        Recorded.answer (ask b.2 memory) (calls ++ [.subscriber b.1 call]) := hask _ _ _ _
    rw [recordings, List.map_cons, List.map_cons, ← recordings]
    cases h : (ask b.2 memory).1 with
    | error failure =>
      have hrecorded : (askRecorded (b.2.recording b.1) (memory, calls)).1 = .error failure := by
        rw [hanswer]
        exact h
      rw [round_cons_of_error h, round_cons_of_error hrecorded, hanswer]
      rfl
    | ok m =>
      have hrecorded : (askRecorded (b.2.recording b.1) (memory, calls)).1 = .ok m := by
        rw [hanswer]
        exact h
      cases hstop : m.stop with
      | true =>
        rw [round_cons_of_stop h hstop, round_cons_of_stop hrecorded hstop, hanswer]
        rfl
      | false =>
        rw [round_cons_of_ok h hstop, round_cons_of_ok hrecorded hstop, hanswer]
        simp only [Recorded.answer, ih, Round.recorded, Round.calls, List.take_succ_cons,
          List.map_cons, List.append_assoc, List.singleton_append]

theorem askAll_recordings
    (hask : ∀ n b memory calls, askRecorded (b.recording n) (memory, calls) =
      Recorded.answer (ask b memory) (calls ++ [.subscriber n call]))
    (bs : List (Nat × Subscriber σ)) (memory : σ) (calls : List NotedCall) :
    let r := round ask (bs.map Prod.snd) memory
    askAll askRecorded (recordings bs) (memory, calls) =
      (r.outcome, r.memory, calls ++ r.calls bs call) := by
  intro r
  rw [askAll_eq_round, round_recordings hask]
  rfl

theorem tell_recordings (bs : List (Nat × Subscriber σ)) (notice : Notice) (memory : σ)
    (calls : List NotedCall) :
    tell (recordings bs) notice (memory, calls) =
      (tell (bs.map Prod.snd) notice memory,
        calls ++ bs.map fun b ↦ .subscriber b.1 (.notify notice)) := by
  induction bs generalizing memory calls with
  | nil => exact congrArg (Prod.mk _) (List.append_nil calls).symm
  | cons b bs ih =>
    rw [List.map_cons, List.map_cons, List.append_cons]
    exact ih _ _

theorem tellAll_recordings (bs : List (Nat × Subscriber σ)) (notices : List Notice) (memory : σ)
    (calls : List NotedCall) :
    tellAll (recordings bs) notices (memory, calls) =
      (tellAll (bs.map Prod.snd) notices memory, calls ++ NotedCall.tellings bs notices) := by
  induction notices generalizing memory calls with
  | nil => exact congrArg (Prod.mk _) (List.append_nil calls).symm
  | cons notice notices ih =>
    rw [NotedCall.tellings, List.flatMap_cons, ← List.append_assoc]
    change tellAll (recordings bs) notices (tell (recordings bs) notice (memory, calls)) = _
    rw [tell_recordings]
    exact ih _ _

end Subscriber

namespace Session

/-- Grouping subscribers changes nothing about how an event is handled. -/
theorem handle_groups (s : Session) (groups : List (List (Subscriber σ))) (e : Event) (memory : σ) :
    s.handle (groups.map Subscriber.group) e memory = s.handle groups.flatten e memory := by
  have hgeneral (memory : σ) :
      Subscriber.askAll (fun b ↦ b.onEvent e s.view) (groups.map Subscriber.group) memory =
        Subscriber.askAll (fun b ↦ b.onEvent e s.view) groups.flatten memory :=
    Subscriber.askAll_groups (fun _ _ ↦ rfl) groups memory
  have hkind (text : String) (view : View) (memory : σ) :
      Subscriber.askAll (fun b ↦ b.onKind e.kind text view) (groups.map Subscriber.group) memory =
        Subscriber.askAll (fun b ↦ b.onKind e.kind text view) groups.flatten memory :=
    Subscriber.askAll_groups (fun _ _ ↦ rfl) groups memory
  simp only [handle, hgeneral, hkind, Subscriber.tellAll_groups]

/-- Keeping a record changes nothing about how an event is handled. -/
theorem handle_forget (s : Session) (bs : List (Nat × Subscriber σ)) (e : Event) (memory : σ)
    (calls : List NotedCall) :
    let recorded := s.handle (Subscriber.recordings bs) e (memory, calls)
    s.handle (bs.map Prod.snd) e memory =
      ⟨recorded.session, recorded.memory.1, recorded.outcome⟩ := by
  intro recorded
  have hbs : List.Forall₂ (Correspondence.faithful σ).SameSubscriber (bs.map Prod.snd)
      (Subscriber.recordings bs) := by
    rw [Subscriber.recordings, List.forall₂_map_left_iff, List.forall₂_map_right_iff]
    exact List.forall₂_same.2 fun b _ ↦ Correspondence.sameSubscriber_recording b.1 b.2
  have hmemory : (Correspondence.faithful σ).memory memory (memory, calls) := rfl
  obtain ⟨session, outcome, n, n', hplain, hrecorded, hn⟩ :=
    Correspondence.sessionHandle hbs hmemory (Correspondence.sameEvent_refl _ e) s
  obtain rfl : n = n'.1 := hn
  rw [hplain, show recorded = _ from hrecorded]

theorem askGeneral_recordings (s : Session) (bs : List (Nat × Subscriber σ)) (e : Event)
    (memory : σ) (calls : List NotedCall) :
    let general := Subscriber.round (fun b ↦ b.onEvent e s.view) (bs.map Prod.snd) memory
    s.askGeneral (Subscriber.recordings bs) e (memory, calls) =
      (general.outcome, general.memory, calls ++ general.calls bs (.onEvent e s.view)) :=
  Subscriber.askAll_recordings (fun _ _ _ _ ↦ rfl) bs memory calls

theorem askKind_recordings (s : Session) (bs : List (Nat × Subscriber σ)) (k : EventKind)
    (text : String) (memory : σ) (calls : List NotedCall) :
    let particular := Subscriber.round (fun b ↦ b.onKind k text s.view) (bs.map Prod.snd) memory
    s.askKind (Subscriber.recordings bs) k text (memory, calls) =
      (particular.outcome, particular.memory,
        calls ++ particular.calls bs (.onKind k text s.view)) :=
  Subscriber.askAll_recordings (fun _ _ _ _ ↦ rfl) bs memory calls

/-- **The phases of handling an event.** In the first phase the subscribers are asked about the
event in general. If that round ends because one of them fails or asks to stop, the session stays as
it is and the outcome of the round is the outcome. Otherwise the event is applied and all are told
of it. If it cannot be applied, that is the outcome; if it can, the subscribers are asked about what
the event says and shown the session as the event left it, and the outcome of that round is the
outcome. No other calls are made.

The subscribers may be grouped in any way, since merging mutations is a monoid. -/
theorem handle_recording (s : Session) (bs : List (Nat × Subscriber σ)) (e : Event) (memory : σ) :
    let plain := bs.map Prod.snd
    let recorded := s.handle (Subscriber.recordings bs) e (memory, [])
    let general := Subscriber.round (fun b ↦ b.onEvent e s.view) plain memory
    let generalCalls := general.calls bs (.onEvent e s.view)
    let effect := s.apply e.kind
    let told := Subscriber.tellAll plain effect.notices general.memory
    let toldCalls := generalCalls ++ NotedCall.tellings bs effect.notices
    (recorded =
      if general.ended then ⟨s, (general.memory, generalCalls), general.outcome⟩
      else
        match effect.outcome with
        | .error failure => ⟨effect.session, (told, toldCalls), .error failure⟩
        | .ok text =>
          let view := effect.session.view
          let particular := Subscriber.round (fun b ↦ b.onKind e.kind text view) plain told
          let particularCalls := particular.calls bs (.onKind e.kind text view)
          ⟨effect.session, (particular.memory, toldCalls ++ particularCalls),
            particular.outcome⟩) ∧
      s.handle plain e memory = ⟨recorded.session, recorded.memory.1, recorded.outcome⟩ ∧
      (∀ groups : List (List (Subscriber σ)),
        s.handle (groups.map Subscriber.group) e memory = s.handle groups.flatten e memory) ∧
      (∀ a b c : Mutation, (a.merge b).merge c = a.merge (b.merge c)) ∧
      ∀ m : Mutation, m.merge .nothing = m ∧ Mutation.nothing.merge m = m := by
  intro plain recorded general generalCalls effect told toldCalls
  refine ⟨?_, s.handle_forget bs e memory [], fun groups ↦ s.handle_groups groups e memory,
    Mutation.merge_assoc, fun m ↦ ⟨m.merge_nothing, m.nothing_merge⟩⟩
  have hgeneral : s.askGeneral (Subscriber.recordings bs) e (memory, []) =
      (general.outcome, general.memory, generalCalls) := s.askGeneral_recordings bs e memory []
  have htold : s.memoryAfter (Subscriber.recordings bs) e (memory, []) = (told, toldCalls) := by
    rw [memoryAfter, hgeneral]
    exact Subscriber.tellAll_recordings bs effect.notices general.memory generalCalls
  cases hanswer : general.outcome with
  | error failure =>
    have hasked : (s.askGeneral (Subscriber.recordings bs) e (memory, [])).1 = .error failure := by
      rw [hgeneral, hanswer]
    rw [if_pos (Subscriber.ended_of_error hanswer)]
    exact (handle_of_askGeneral_error hasked).trans (by rw [hgeneral])
  | ok m =>
    have hasked : (s.askGeneral (Subscriber.recordings bs) e (memory, [])).1 = .ok m := by
      rw [hgeneral, hanswer]
    have hended : general.ended = m.stop := Subscriber.ended_of_ok hanswer
    cases hstop : m.stop with
    | true =>
      rw [if_pos (hended.trans hstop)]
      exact (handle_of_stop hasked hstop).trans (by rw [hgeneral])
    | false =>
      have hpasses := passes_iff.2 ⟨m, hasked, hstop⟩
      rw [if_neg (Bool.eq_false_iff.1 (hended.trans hstop))]
      cases heffect : effect.outcome with
      | error failure => exact (handle_of_apply_error hpasses heffect).trans (by rw [htold])
      | ok text =>
        refine (handle_of_apply_ok hpasses heffect).trans ?_
        dsimp only
        rw [htold, askKind_recordings]

/-- A patch that cannot be applied: the subscriber neither fails nor asks to stop, yet it is not
asked about what the event says. -/
theorem handle_recording_unapplied :
    let delta : Json := .arr [.obj [("op", .str "remove"), ("path", .str "/x")]]
    let e : Event := { kind := .stateDelta delta, timestamp := 0 }
    let bs : List (Nat × Subscriber Unit) := [(1, {})]
    let s : Session := {}
    let recorded := s.handle (Subscriber.recordings bs) e ((), [])
    (Subscriber.round (fun b ↦ b.onEvent e s.view) (bs.map Prod.snd) ()).ended = false ∧
      recorded.outcome.isOk = false ∧ recorded.memory.2 = [.subscriber 1 (.onEvent e s.view)] := by
  intro delta e bs s recorded
  exact ⟨by decide, by decide, by rfl⟩

end Session

end AgentSession
