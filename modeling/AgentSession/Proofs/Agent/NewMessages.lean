import AgentSession.Event.Sample
import AgentSession.Middleware.Builtin
import AgentSession.Proofs.Agent.Attempts
import AgentSession.Proofs.Session.Appending
/-!
# The new messages of a run

A run tells its caller which messages are new by leaving out those whose identifiers were there when
it began. As long as nobody replaces the list of messages and identifiers are drawn afresh, messages
are only appended to, so these are the messages at the end of the list, with the contents that they
have when the run is finished (`Agent.newMessages_finish`).

The stages see the result before the caller does. Those that come with the library do not touch the
messages in it.
-/

namespace AgentSession

variable {σ : Type}

/-! ## Sessions -/

namespace Session

open Message (Continues)

variable {s : Session} {op : Operation σ} {ops : List (Operation σ)}

theorem advances_handle {subscribers : List (Subscriber σ)} {e : Event} {memory : σ}
    (hk : ∀ messages, e.kind ≠ .messagesSnapshot messages)
    (hfresh : s.passes subscribers e memory = true → s.DrawsFresh e.kind) :
    e.kind.Advances s.messages (s.handle subscribers e memory).session.messages := by
  rw [handle_session]
  split
  · rename_i hpasses
    exact advances_apply hk (hfresh hpasses)
  · exact .same

theorem continues_perform (hop : s.Admissible op) (hkeeps : ¬op.Replaces) :
    Continues s.messages (s.perform op).messages := by
  cases op with
  | handle subscribers e memory =>
    have hadvances : e.kind.Advances s.messages (s.handle subscribers e memory).session.messages :=
      advances_handle (fun messages heq ↦ hkeeps ⟨messages, heq⟩) fun hpasses ↦ (hop hpasses).1
    exact hadvances.continues
  | commit m =>
    have hsame : (s.mutate m).messages = s.messages := by
      rw [mutate_messages, not_not.1 hkeeps, Option.getD_none]
    change Continues s.messages (s.mutate m).messages
    rw [hsame]
    exact .refl _
  | addMessage m => exact ⟨s.messages, [m], rfl, rfl, List.forall_mem_singleton.2 hop⟩
  | setMessages messages => exact absurd trivial hkeeps
  | setStore store => exact .refl _

/-- Operations that replace no messages keep every message in its place. -/
theorem continues_performAll (hops : s.AllAdmissible ops) (hkeeps : ∀ op ∈ ops, ¬op.Replaces) :
    Continues s.messages (s.performAll ops).messages := by
  induction ops generalizing s with
  | nil => exact .refl _
  | cons op ops ih =>
    obtain ⟨hop, hops⟩ := hops
    obtain ⟨hfirst, hrest⟩ := List.forall_mem_cons.1 hkeeps
    exact (continues_perform hop hfirst).trans (ih hops hrest)

end Session

/-! ## Checking operations -/

namespace Operation

/-- The operation replaces no messages and brings a new identifier, if any, to a session. -/
def appendsTo (s : Session) : Operation σ → Bool
  | .handle _ e _ =>
    match e.kind with
    | .messagesSnapshot _ => false
    | k => k.drawnKind?.all fun kind ↦ !(s.messages.map Message.id).contains (s.drawId kind).1
  | .commit m => m.messages.isNone
  | .addMessage m => !(s.messages.map Message.id).contains m.id
  | .setMessages _ => false
  | .setStore _ => true

/-- All of some operations do so, each to the session that it is performed on. -/
def allAppendTo (s : Session) : List (Operation σ) → Bool
  | [] => true
  | op :: ops => op.appendsTo s && allAppendTo (s.perform op) ops

variable {s : Session} {op : Operation σ} {ops : List (Operation σ)}

theorem not_replaces_of_appendsTo (h : op.appendsTo s = true) : ¬op.Replaces := by
  cases op with
  | handle subscribers e memory =>
    rintro ⟨messages, heq⟩
    rw [appendsTo, heq] at h
    cases h
  | commit m => exact fun hreplaces ↦ hreplaces (Option.isNone_iff_eq_none.1 h)
  | addMessage m => exact id
  | setMessages messages => cases h
  | setStore store => exact id

theorem admissible_of_appendsTo (h : op.appendsTo s = true) : s.Admissible op := by
  have hkeeps := not_replaces_of_appendsTo h
  cases op with
  | handle subscribers e memory =>
    refine fun _ ↦ ⟨fun _ kind hkind ↦ ?_, fun messages heq ↦ (hkeeps ⟨messages, heq⟩).elim⟩
    rw [appendsTo] at h
    split at h
    · cases h
    · rw [hkind] at h
      simpa using h
  | commit m =>
    intro messages heq
    rw [appendsTo, heq] at h
    cases h
  | addMessage m =>
    change m.id ∉ s.messages.map Message.id
    simpa [appendsTo] using h
  | setMessages messages => cases h
  | setStore store => trivial

theorem allAdmissible_of_allAppendTo (h : allAppendTo s ops = true) :
    s.AllAdmissible ops ∧ ∀ op ∈ ops, ¬op.Replaces := by
  induction ops generalizing s with
  | nil => exact ⟨trivial, List.forall_mem_nil _⟩
  | cons op ops ih =>
    obtain ⟨hop, hops⟩ := Bool.and_eq_true_iff.1 h
    obtain ⟨hadmissible, hkeeps⟩ := ih hops
    exact ⟨⟨admissible_of_appendsTo hop, hadmissible⟩,
      List.forall_mem_cons.2 ⟨not_replaces_of_appendsTo hop, hkeeps⟩⟩

end Operation

/-! ## Runs that are fed -/

namespace Running

variable {r q : Running σ}

/-- The run that is fed some pieces, whether or not a payload is refused. -/
def feedEach (r : Running σ) : List Bytes → Running σ
  | [] => r
  | piece :: pieces => (r.feed piece).2.feedEach pieces

/-- What a run does to its session when it is fed some pieces and then finished. -/
def fedOperations (r : Running σ) : List Bytes → List (Operation σ)
  | [] => (r.withFramer r.agent.framer.flush).operations r.agent.framer.flush.ready
  | piece :: pieces =>
    (r.withFramer (r.agent.framer.feed piece)).operations (r.agent.framer.feed piece).ready ++
      (r.feed piece).2.fedOperations pieces

theorem session_advance (r : Running σ) (framer : Framer) :
    (r.advance framer).2.agent.session =
      r.agent.session.performAll ((r.withFramer framer).operations framer.ready) := by
  have hsettled (x : Option Failure × Running σ) :
      (settled x).2.agent.session = x.2.agent.session := by
    obtain ⟨_ | failure, q⟩ := x
    · rfl
    · rfl
  have heach := (r.withFramer framer).session_processEach framer.ready
  have hall := (r.withFramer framer).settled_processAll framer.ready
  rw [advance, ← hsettled]
  change (settled ((r.withFramer framer).processAll framer.ready)).2.agent.session = _
  rw [hall]
  rcases hp : (r.withFramer framer).processEach framer.ready with ⟨_ | failure, q⟩
  · rw [hp] at heach
    exact heach
  · rw [hp] at heach
    exact heach

/-- What a run keeps while it is fed. -/
structure Keeps (r q : Running σ) : Prop where
  stages : q.agent.stages = r.agent.stages
  initialIds : q.run.initialIds = r.run.initialIds

theorem Keeps.refl (r : Running σ) : Keeps r r := ⟨rfl, rfl⟩

theorem Keeps.trans {p : Running σ} (h : Keeps r q) (h' : Keeps q p) : Keeps r p :=
  ⟨h'.stages.trans h.stages, h'.initialIds.trans h.initialIds⟩

theorem keeps_handle (r : Running σ) (e : Event) : Keeps r (r.handle e) := by
  unfold handle Agent.handle
  dsimp only
  cases (r.agent.session.handle r.agent.subscribers.values e r.agent.memory).outcome with
  | error failure => exact ⟨rfl, rfl⟩
  | ok m => exact ⟨rfl, rfl⟩

theorem keeps_takeEvent (r : Running σ) (e : Event) : Keeps r (r.takeEvent e) := by
  have hfoldl (events : List Event) (r : Running σ) : Keeps r (events.foldl handle r) := by
    induction events generalizing r with
    | nil => exact .refl r
    | cons e events ih => exact (keeps_handle r e).trans (ih _)
  have hresume : Keeps r (r.resume (Chain.event r.agent.stages.values e r.scene).2) := ⟨rfl, rfl⟩
  exact hresume.trans (hfoldl _ _)

theorem keeps_process {payload : String} (h : r.process payload = .ok q) : Keeps r q := by
  rw [process] at h
  split at h
  · obtain rfl := Except.ok.inj h
    exact keeps_takeEvent r _
  · split at h
    · obtain rfl := Except.ok.inj h
      exact .refl r
    · cases h

theorem keeps_processAll (r : Running σ) (payloads : List String) :
    Keeps r (r.processAll payloads).2 := by
  induction payloads generalizing r with
  | nil => exact ⟨rfl, rfl⟩
  | cons payload rest ih =>
    rw [processAll]
    split
    · rename_i q hq
      exact (keeps_process hq).trans (ih q)
    · exact ⟨rfl, rfl⟩

theorem keeps_advance (r : Running σ) (framer : Framer) : Keeps r (r.advance framer).2 := by
  have hframed : Keeps r (r.withFramer framer) := ⟨rfl, rfl⟩
  exact hframed.trans (keeps_processAll (r.withFramer framer) framer.ready)

theorem keeps_feedEach (r : Running σ) (pieces : List Bytes) : Keeps r (r.feedEach pieces) := by
  induction pieces generalizing r with
  | nil => exact .refl r
  | cons piece pieces ih => exact (keeps_advance r _).trans (ih _)

theorem finish_session (r : Running σ) :
    r.finish.2.agent.session = (r.advance r.agent.framer.flush).2.agent.session := by
  rw [finish]
  rcases r.advance r.agent.framer.flush with ⟨_ | failure, q⟩
  · rfl
  · rfl

/-- The session of a run that was fed and finished, told by what was done to it. -/
theorem session_finish_feedEach (r : Running σ) (pieces : List Bytes) :
    (r.feedEach pieces).finish.2.agent.session =
      r.agent.session.performAll (r.fedOperations pieces) := by
  induction pieces generalizing r with
  | nil => rw [feedEach, finish_session, session_advance, fedOperations]
  | cons piece pieces ih =>
    have hfed : (r.feed piece).2.agent.session = _ := session_advance r (r.agent.framer.feed piece)
    rw [feedEach, ih, hfed, fedOperations, Session.performAll_append]

/-- What a run reports is what the stages make of its result. -/
theorem exists_result_of_finish {reported : RunResult} (h : r.finish.1 = .ok reported) :
    ∃ result scene, reported = (Chain.response r.agent.stages.values result scene).1 ∧
      result.newMessages = r.finish.2.agent.session.messages.filter fun m ↦
        !r.run.initialIds.contains m.id := by
  have hkeeps := keeps_advance r r.agent.framer.flush
  have hsession := finish_session r
  rw [finish] at h
  rw [hsession]
  rcases hq : r.advance r.agent.framer.flush with ⟨_ | failure, q⟩
  · rw [hq] at h hkeeps
    refine ⟨q.result, q.scene, ?_, ?_⟩
    · rw [← hkeeps.stages]
      exact (Except.ok.inj h).symm
    · rw [← hkeeps.initialIds]
      rfl
  · rw [hq] at h
    cases h

end Running

/-! ## Stages that keep the messages of a result -/

/-- The stage reports the new messages that a result has. -/
def Stage.KeepsNewMessages (g : Stage σ) : Prop :=
  ∀ result scene, (g.onResponse result scene).1.newMessages = result.newMessages

theorem Chain.newMessages_response {stages : List (Stage σ)}
    (h : ∀ g ∈ stages, g.KeepsNewMessages) (result : RunResult) (scene : Scene σ) :
    (Chain.response stages result scene).1.newMessages = result.newMessages := by
  induction stages with
  | nil => rfl
  | cons g stages ih =>
    obtain ⟨hg, hstages⟩ := List.forall_mem_cons.1 h
    exact (hg _ _).trans (ih hstages)

theorem Stage.keepsNewMessages_logging : (Stage.logging : Stage σ).KeepsNewMessages :=
  fun _ _ ↦ rfl

theorem Stage.keepsNewMessages_deadline (ms : Nat) :
    (Stage.deadline ms : Stage σ).KeepsNewMessages := fun _ _ ↦ rfl

theorem EventFilter.keepsNewMessages (f : EventFilter) : (f.stage : Stage σ).KeepsNewMessages :=
  fun _ _ ↦ rfl

theorem Retry.keepsNewMessages (r : Retry) (slot : Slot σ Attempts) :
    (r.stage slot).KeepsNewMessages := fun _ _ ↦ rfl

/-! ## New messages -/

namespace Agent

/-- **Messages are only appended to.** An event that brings no list of messages keeps every message
in its place, with its header, and adds at most one; otherwise it changes one message at most, in
the way of its kind.

So let a run be fed some pieces and then be finished, and let nothing it does to the session replace
the messages. The messages that it began with come first, and those after them are the new messages
of its result, which is what is reported unless a stage makes something else of them. -/
theorem newMessages_finish :
    (∀ (s : Session) (subscribers : List (Subscriber σ)) (e : Event) (memory : σ),
      (∀ messages, e.kind ≠ .messagesSnapshot messages) → s.DrawsFresh e.kind →
      let messages := (s.handle subscribers e memory).session.messages
      e.kind.Advances s.messages messages ∧
        ∃ kept added, messages = kept ++ added ∧
          kept.map Message.header = s.messages.map Message.header ∧ added.length ≤ 1) ∧
    ∀ (a : Agent σ) (request : RunRequest) (pieces : List Bytes),
      let run := a.begin request
      let ops := run.fedOperations pieces
      run.agent.session.AllAdmissible ops → (∀ op ∈ ops, ¬op.Replaces) →
      let finished := (run.feedEach pieces).finish
      ∃ kept added, finished.2.agent.session.messages = kept ++ added ∧
        kept.map Message.header = a.session.messages.map Message.header ∧
        ∀ reported, finished.1 = .ok reported →
          (∃ result scene, reported = (Chain.response a.stages.values result scene).1 ∧
            result.newMessages = added) ∧
          ((∀ g ∈ a.stages.values, g.KeepsNewMessages) → reported.newMessages = added) := by
  constructor
  · intro s subscribers e memory hk hfresh messages
    have hadvances : e.kind.Advances s.messages messages :=
      Session.advances_handle hk fun _ ↦ hfresh
    obtain ⟨kept, added, hmessages, hkept, hadded, -⟩ := hadvances.exists_kept
    exact ⟨hadvances, kept, added, hmessages, hkept, hadded⟩
  · intro a request pieces run ops hops hkeeps finished
    obtain ⟨kept, added, hmessages, hkept, hadded⟩ := Session.continues_performAll hops hkeeps
    have hsession : finished.2.agent.session = _ := run.session_finish_feedEach pieces
    rw [← hsession] at hmessages
    refine ⟨kept, added, hmessages, hkept, fun reported hreported ↦ ?_⟩
    obtain ⟨result, scene, hresponse, hresult⟩ := Running.exists_result_of_finish hreported
    have hfed := run.keeps_feedEach pieces
    have hstages : (run.feedEach pieces).agent.stages = a.stages := hfed.stages
    have hids : (run.feedEach pieces).run.initialIds = a.session.messages.map Message.id :=
      hfed.initialIds
    have hnew : result.newMessages = added := by
      rw [hresult, hids]
      change finished.2.agent.session.messages.filter _ = _
      rw [hmessages]
      exact Message.filter_new hkept hadded
    rw [hstages] at hresponse
    refine ⟨⟨result, scene, hresponse, hnew⟩, fun hkeepsNew ↦ ?_⟩
    rw [hresponse, Chain.newMessages_response hkeepsNew, hnew]

/-- A piece of a tool call goes to a message that is added for it. -/
def pieceOfCall : Event := { kind := .toolCallChunk "t" (some "f") none "x", timestamp := 0 }

/-- An agent with a message of the user. -/
def askedAgent : Agent Attempts :=
  { retryingAgent with session := { messages := [{ id := "u", role := .user, content := "hi" }] } }

def askedRequest : RunRequest := { input := { threadId := "h", runId := "r" } }

/-- The result of a tool call, which asks for an identifier that is taken, and a text. -/
def resultAndText : List Bytes :=
  let body : Body := { parts := [.event (Sample.toolCallResult "u" "t" "ok"),
    .event (Sample.textMessageChunk "m" "é")] }
  body.pieces 50

/-- The run of an agent with a message of the user adds the result of a tool call, for which it
draws an identifier, and a text. -/
theorem newMessages_finish_called :
    let user : Message := { id := "u", role := .user, content := "hi" }
    let called : Message :=
      { id := "msg_1", role := .assistant, toolCalls := [(ToolCall.new "t" "f").append "x"] }
    let added : List Message :=
      [.toolResult "tlr_1" "t" "ok", { id := "m", role := .assistant, content := "é" }]
    let finished := ((askedAgent.begin askedRequest).feedEach resultAndText).finish
    pieceOfCall.kind.Advances [user] [user, called] ∧
      ∃ reported kept, finished.1 = .ok reported ∧ reported.newMessages = added ∧
        kept.header = user.header ∧ finished.2.agent.session.messages = kept :: added := by
  intro user called added
  have hfresh : ({ messages := [user] } : Session).DrawsFresh pieceOfCall.kind := by
    rintro - kind ⟨⟩
    decide
  have hhandled : (Session.handle { messages := [user] } ([] : List (Subscriber Attempts))
      pieceOfCall []).session.messages = [user, called] := by decide
  have hadvances : pieceOfCall.kind.Advances [user] [user, called] := by
    rw [← hhandled]
    exact (newMessages_finish.1 { messages := [user] } [] pieceOfCall [] nofun hfresh).1
  have hops : Operation.allAppendTo (askedAgent.begin askedRequest).agent.session
      ((askedAgent.begin askedRequest).fedOperations resultAndText) = true := by decide +kernel
  have hnew : ((askedAgent.begin askedRequest).feedEach resultAndText).finish.1.toOption.map
      RunResult.newMessages = some added := by decide +kernel
  obtain ⟨hadmissible, hkeeps⟩ := Operation.allAdmissible_of_allAppendTo hops
  obtain ⟨kept, new, hsession, hkept, hreport⟩ :=
    newMessages_finish.2 askedAgent askedRequest resultAndText hadmissible hkeeps
  obtain ⟨m, rfl⟩ : ∃ m, kept = [m] := by
    have hlength := congrArg List.length hkept
    rw [List.length_map, List.length_map] at hlength
    exact List.length_eq_one_iff.1 hlength
  have hstages : ∀ g ∈ askedAgent.stages.values, g.KeepsNewMessages :=
    List.forall_mem_singleton.2 (Retry.keepsNewMessages {} .whole)
  have hfinishes (x : Except Failure RunResult)
      (h : x.toOption.map RunResult.newMessages = some added) :
      ∃ reported, x = .ok reported ∧ reported.newMessages = added := by
    cases x with
    | error failure => cases h
    | ok reported => exact ⟨reported, rfl, Option.some.inj h⟩
  obtain ⟨reported, hreported, hadded⟩ := hfinishes _ hnew
  obtain rfl : new = added := ((hreport reported hreported).2 hstages).symm.trans hadded
  exact ⟨hadvances, reported, m, hreported, hadded, (List.cons.inj hkept).1, hsession⟩

end Agent

end AgentSession
