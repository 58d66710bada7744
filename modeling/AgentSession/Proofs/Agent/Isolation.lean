import AgentSession.Proofs.Agent.Delivery
/-!
# Runs that do not depend on earlier runs

A run that failed, was broken off or met with malformed payloads leaves much behind: bytes of a line
and of an event in the framer, payloads that wait there, texts and arguments that are still open,
and its request and its result. A later run does not notice any of it. Two agents that differ in
nothing else (`Agent.Agree`) begin runs that do the same from then on, whatever is asked of them
(`Agent.answerAll_begin`).

## The argument

Beginning a run replaces each of these parts by one that does not depend on the agent, so that the
two runs correspond once they have begun (`Agent.Agree.begin`). Runs that correspond give the same
replies and still correspond afterwards, one function after the other, so what is left is an
induction on what they are asked (`Correspondence.SameRun.answerAll`). As an agent that keeps a
record is an agent, this covers the calls of subscribers and stages.
-/

namespace AgentSession

variable {σ τ : Type}

/-! ## What may be asked of a run -/

/-- What a run in progress may be asked to do. -/
inductive RunCall where
  | feed (piece : Bytes)
  | finish
  | fail (failure : Failure)
deriving DecidableEq, Repr

/-- What a run in progress replies. -/
inductive RunReply where
  /-- The failure at which the run has stopped to take payloads, if it has. -/
  | fed (failure : Option Failure)
  | finished (result : Except Failure RunResult)
  /-- The failure that the stages have left, if they have. -/
  | failed (failure : Option Failure)
deriving DecidableEq

namespace Running

def answer (r : Running σ) : RunCall → RunReply × Running σ
  | .feed piece => ((r.feed piece).map .fed id)
  | .finish => (r.finish.map .finished id)
  | .fail failure => ((r.fail failure).map .failed id)

/-- Answers calls one after the other, in any order. -/
def answerAll (r : Running σ) : List RunCall → List RunReply × Running σ
  | [] => ([], r)
  | call :: calls =>
    let (reply, r) := r.answer call
    let (replies, r) := r.answerAll calls
    (reply :: replies, r)

end Running

namespace Correspondence

/-! ## Corresponding runs -/

variable {C : Correspondence σ τ} {r : Running σ} {r' : Running τ}

theorem SameRun.answer (h : C.SameRun r r') (call : RunCall) :
    C.SameStep (r.answer call) (r'.answer call) := by
  cases call with
  | feed piece => exact ⟨congrArg RunReply.fed (h.feed piece).1, (h.feed piece).2⟩
  | finish => exact ⟨congrArg RunReply.finished h.finish.1, h.finish.2⟩
  | fail failure => exact ⟨congrArg RunReply.failed (h.fail failure).1, (h.fail failure).2⟩

/-- Corresponding runs give the same replies, whatever they are asked. -/
theorem SameRun.answerAll (h : C.SameRun r r') (calls : List RunCall) :
    C.SameStep (r.answerAll calls) (r'.answerAll calls) := by
  induction calls generalizing r r' with
  | nil => exact ⟨rfl, h⟩
  | cons call calls ih =>
    obtain ⟨reply, q, q', hq, hq', h⟩ := (h.answer call).exists
    obtain ⟨replies, p, p', hp, hp', h⟩ := (ih h).exists
    simp only [Running.answerAll, hq, hq', hp, hp']
    exact ⟨rfl, h⟩

/-! ## What is the same corresponds -/

/-- Times and memories that are the same. -/
def identity (σ : Type) : Correspondence σ σ where
  time := Eq
  memory := Eq
  time_refl _ := rfl

theorem SameScene.eq_of_identity {s s' : Scene σ} (h : (identity σ).SameScene s s') : s' = s := by
  obtain ⟨context, memory⟩ := s'
  obtain ⟨hcontext, rfl⟩ := h
  obtain rfl : context = s.context := hcontext.eq_of_time rfl
  rfl

theorem acts_identity {α : Type} {R : α → α → Prop} (hR : ∀ a, R a a) (x : α × Scene σ) :
    (identity σ).Acts R x x :=
  ⟨hR x.1, sameContext_refl _ x.2.context, rfl⟩

theorem sameSubscriber_identity (b : Subscriber σ) : (identity σ).SameSubscriber b b where
  onEvent view he hm := by
    obtain rfl := he.eq_of_time rfl
    obtain rfl := hm
    exact ⟨rfl, rfl⟩
  onKind kind text view hm := by
    obtain rfl := hm
    exact ⟨rfl, rfl⟩
  notify notice hm := congrArg (b.notify notice) hm

theorem sameStage_identity (g : Stage σ) : (identity σ).SameStage g g where
  admitsRun input hs := by
    obtain rfl := hs.eq_of_identity
    exact ⟨rfl, rfl⟩
  onRequest input hs := by
    obtain rfl := hs.eq_of_identity
    exact acts_identity (fun _ ↦ rfl) _
  onResponse result hs := by
    obtain rfl := hs.eq_of_identity
    exact acts_identity (fun _ ↦ rfl) _
  onError failure hs := by
    obtain rfl := hs.eq_of_identity
    exact acts_identity (fun _ ↦ rfl) _
  admitsEvent he hs := by
    obtain rfl := he.eq_of_time rfl
    obtain rfl := hs.eq_of_identity
    exact ⟨rfl, rfl⟩
  beforeEvent he hs := by
    obtain rfl := he.eq_of_time rfl
    obtain rfl := hs.eq_of_identity
    exact acts_identity (forall₂_sameEvent_refl _) _
  onEvent he hs := by
    obtain rfl := he.eq_of_time rfl
    obtain rfl := hs.eq_of_identity
    exact acts_identity (rel_sameEvent_refl _) _
  afterEvent he hs := by
    obtain rfl := he.eq_of_time rfl
    obtain rfl := hs.eq_of_identity
    exact acts_identity (forall₂_sameEvent_refl _) _

end Correspondence

/-! ## Agents that differ in what is left behind -/

namespace Agent

/-- Agents that differ at most in what an earlier run has left behind. The moments that a clock has
brought already do not count, only those to come. -/
structure Agree (a b : Agent σ) : Prop where
  endpoint : a.endpoint = b.endpoint
  messages : a.session.messages = b.session.messages
  store : a.session.store = b.session.store
  ids : a.session.ids = b.session.ids
  subscribers : a.subscribers.entries = b.subscribers.entries
  stages : a.stages.entries = b.stages.entries
  moments : ∀ n, a.clock.moment (a.clock.passed + n) = b.clock.moment (b.clock.passed + n)
  memory : a.memory = b.memory

variable {a b : Agent σ}

theorem Agree.recording (h : a.Agree b) : a.recording.Agree b.recording where
  endpoint := h.endpoint
  messages := h.messages
  store := h.store
  ids := h.ids
  subscribers := by simp only [Agent.recording, Registry.mapNumbered, h.subscribers]
  stages := by simp only [Agent.recording, Registry.mapNumbered, h.stages]
  moments := h.moments
  memory := congrArg (·, []) h.memory

/-- Nothing that is left behind survives the beginning of a run. -/
theorem Agree.start (h : a.Agree b) (input : RunInput) :
    a.session.start input = b.session.start input := by
  simp only [Session.start, Session.clearBuffers, h.messages, h.store, h.ids]

theorem Agree.begin (h : a.Agree b) (request : RunRequest) :
    (Correspondence.identity σ).SameRun (a.begin request) (b.begin request) := by
  have hsubscribers : a.subscribers.values = b.subscribers.values := by
    rw [Registry.values, h.subscribers, Registry.values]
  have hstages : a.stages.values = b.stages.values := by
    rw [Registry.values, h.stages, Registry.values]
  have hmemory : Subscriber.tell a.subscribers.values (.runInitialized request.input) a.memory =
      Subscriber.tell b.subscribers.values (.runInitialized request.input) b.memory := by
    rw [hsubscribers, h.memory]
  refine ⟨?_, ?_⟩
  · exact
      { endpoint := h.endpoint
        session := h.start request.input
        subscribers := by
          rw [show (a.begin request).agent.subscribers.values = b.subscribers.values from
            hsubscribers]
          exact List.forall₂_same.2 fun g _ ↦ Correspondence.sameSubscriber_identity g
        stages := by
          rw [show (a.begin request).agent.stages.values = b.stages.values from hstages]
          exact List.forall₂_same.2 fun g _ ↦ Correspondence.sameStage_identity g
        framer := rfl
        clock := ⟨fun n ↦ congrArg Moment.now (h.moments n),
          fun n ↦ congrArg Moment.freshId (h.moments n)⟩
        memory := hmemory }
  · simp only [Agent.begin, h.messages]

/-- **Runs are isolated.** Let two agents with arbitrary subscribers and stages differ at most in
what earlier runs have left behind, and let both begin a run with the same request. Whatever the
runs are then asked, and in whatever order,

* their replies are the same, and afterwards so are the sessions, what is known of the runs, what is
  in their framers, and all that is remembered;
* the calls of subscribers and stages are the same, with the same arguments, where keeping a record
  of them makes no difference to the replies.

Beginning a run changes neither the messages nor the state document nor its history. -/
theorem answerAll_begin (h : a.Agree b) (request : RunRequest) (calls : List RunCall) :
    let after := (a.begin request).answerAll calls
    let after' := (b.begin request).answerAll calls
    let recorded := (a.recording.begin request).answerAll calls
    let recorded' := (b.recording.begin request).answerAll calls
    (after.1 = after'.1 ∧ after.2.agent.session = after'.2.agent.session ∧
      after.2.run = after'.2.run ∧ after.2.agent.framer = after'.2.agent.framer ∧
      after.2.agent.memory = after'.2.agent.memory) ∧
    (recorded.1 = after.1 ∧ recorded.2.agent.memory.1 = after.2.agent.memory ∧
      recorded.2.agent.memory.2 = recorded'.2.agent.memory.2) ∧
    (a.begin request).agent.session.messages = a.session.messages ∧
    (a.begin request).agent.session.store = a.session.store := by
  obtain ⟨hreplies, hrun⟩ := (h.begin request).answerAll calls
  obtain ⟨-, hrecorded⟩ := (h.recording.begin request).answerAll calls
  obtain ⟨hsame, hfaithful⟩ :=
    ((Correspondence.sameAgent_recording a).begin request).answerAll calls
  refine ⟨⟨hreplies, hrun.agent.session, hrun.run, hrun.agent.framer, hrun.agent.memory⟩,
    ⟨hsame.symm, hfaithful.agent.memory.symm, ?_⟩, rfl, rfl⟩
  exact congrArg Prod.snd hrecorded.agent.memory

/-- The second agent has the beginning of a data line and a payload in its framer, a text, a call
and a thinking message open, and a result. A malformed payload breaks its run off as well, and then
both are finished, without a result. -/
theorem answerAll_begin_used :
    let used : Agent Nat :=
      { countingAgent with
        framer :=
          { tail := [0x64, 0x61, 0x74, 0x61, 0x3A]
            data := [['x']]
            ready := ["y"]
            lineFeed_notMem := by decide }
        session :=
          { countingAgent.session with
            result := some (.int 1)
            input := some { threadId := "u", runId := "q", state := .null, messages := [] }
            textBuffers := [("m", "open")]
            argumentBuffers := [("c", "open")]
            callParents := [("c", "m")]
            openThinking := some "m" } }
    let request : RunRequest :=
      { input := { threadId := "t", runId := "r", state := .null, messages := [] } }
    let calls : List RunCall :=
      [.feed [0x7A, 0x0A, 0x0A], .feed [0x64, 0x61, 0x74, 0x61, 0x3A, 0x78, 0x0A, 0x0A],
        .fail (.io "lost"), .finish]
    let replies : List RunReply :=
      [.fed none, .fed (some (.parse Running.payloadNotJson)), .failed (some (.io "lost")),
        .finished (.ok
          { threadId := "t", runId := "r", result := .null, newMessages := [],
            newState := .empty })]
    countingAgent.Agree used ∧ ((used.begin request).answerAll calls).1 = replies := by
  intro used request calls replies
  have hagree : countingAgent.Agree used := ⟨rfl, rfl, rfl, rfl, rfl, rfl, fun _ ↦ rfl, rfl⟩
  have hreplies : ((countingAgent.begin request).answerAll calls).1 = replies := by decide +kernel
  have hsame := (answerAll_begin hagree request calls).1.1
  exact ⟨hagree, hsame.symm.trans hreplies⟩

end Agent

end AgentSession
