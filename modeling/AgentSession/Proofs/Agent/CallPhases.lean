import AgentSession.Proofs.Session.Announcements
import AgentSession.Proofs.Session.Phases
/-!
# The calls of each part of a run

Each part of a run calls subscribers and stages in ways of its own: preparing shows the stages a
request, processing asks about events, and the end of a run shows the stages a result or a failure.
What the lifecycle of a run consists of, subscribers are told by none of these parts
(`Notice.isLifecycle`).

The record of an agent that keeps one only grows, and `Recorded.Noted` says by which calls. For each
function that a run passes through, a lemma tells what calls it notes.
-/

namespace AgentSession

variable {σ : Type}

/-! ## Kinds of calls -/

/-- Whether a notice tells of the beginning or the end of a run. -/
def Notice.isLifecycle : Notice → Bool
  | .runInitialized _ | .runFailed _ | .runFinalized _ => true
  | .newMessage _ | .newToolCall _ | .messagesChanged _ | .stateChanged _ => false

namespace NotedCall

/-- In this call a subscriber is told of the beginning or the end of a run. -/
def isLifecycle : NotedCall → Bool
  | .subscriber _ (.notify notice) => notice.isLifecycle
  | _ => false

/-- A call while a run is prepared: a stage acts on the request, or a subscriber is told of a
message of the caller. -/
inductive IsPreparing : NotedCall → Prop
  | message (n : Nat) (m : Message) : IsPreparing (.subscriber n (.notify (.newMessage m)))
  | admitsRun (n : Nat) (input : RunInput) (c : Context) :
    IsPreparing (.stage n (.admitsRun input) c)
  | onRequest (n : Nat) (input : RunInput) (c : Context) :
    IsPreparing (.stage n (.onRequest input) c)

/-- A call while payloads are processed: a subscriber or a stage is asked about an event, or a
subscriber is told what has become of the session. -/
inductive IsProcessing : NotedCall → Prop
  | asked (n : Nat) (e : Event) (view : View) : IsProcessing (.subscriber n (.onEvent e view))
  | askedKind (n : Nat) (k : EventKind) (text : String) (view : View) :
    IsProcessing (.subscriber n (.onKind k text view))
  | told (n : Nat) {notice : Notice} (h : notice.isLifecycle = false) :
    IsProcessing (.subscriber n (.notify notice))
  | admitsEvent (n : Nat) (e : Event) (c : Context) : IsProcessing (.stage n (.admitsEvent e) c)
  | beforeEvent (n : Nat) (e : Event) (c : Context) : IsProcessing (.stage n (.beforeEvent e) c)
  | onEvent (n : Nat) (e : Event) (c : Context) : IsProcessing (.stage n (.onEvent e) c)
  | afterEvent (n : Nat) (e : Event) (c : Context) : IsProcessing (.stage n (.afterEvent e) c)

/-- A call in which a stage acts on a result. -/
inductive IsFinishing : NotedCall → Prop
  | onResponse (n : Nat) (result : RunResult) (c : Context) :
    IsFinishing (.stage n (.onResponse result) c)

/-- A call in which a stage acts on a failure. -/
inductive IsFailing : NotedCall → Prop
  | onError (n : Nat) (failure : Failure) (c : Context) : IsFailing (.stage n (.onError failure) c)

variable {call : NotedCall}

theorem IsPreparing.isLifecycle (h : call.IsPreparing) : call.isLifecycle = false := by
  cases h <;> rfl

theorem IsProcessing.isLifecycle (h : call.IsProcessing) : call.isLifecycle = false := by
  cases h with
  | told n h => exact h
  | _ => rfl

theorem IsFinishing.isLifecycle (h : call.IsFinishing) : call.isLifecycle = false := by
  cases h
  rfl

theorem IsFailing.isLifecycle (h : call.IsFailing) : call.isLifecycle = false := by
  cases h
  rfl

end NotedCall

/-! ## What a record has noted -/

/-- One record is another one with more calls, all of a kind. -/
def Recorded.Noted (P : NotedCall → Prop) (m m' : Recorded σ) : Prop :=
  ∃ calls, m'.2 = m.2 ++ calls ∧ ∀ call ∈ calls, P call

namespace Recorded

variable {P : NotedCall → Prop} {m m' m'' : Recorded σ}

theorem Noted.refl (m : Recorded σ) : Noted P m m :=
  ⟨[], (List.append_nil _).symm, List.forall_mem_nil _⟩

theorem Noted.trans (h : Noted P m m') (h' : Noted P m' m'') : Noted P m m'' := by
  obtain ⟨calls, hm', hcalls⟩ := h
  obtain ⟨calls', hm'', hcalls'⟩ := h'
  refine ⟨calls ++ calls', ?_, List.forall_mem_append.2 ⟨hcalls, hcalls'⟩⟩
  rw [hm'', hm', List.append_assoc]

theorem noted_concat {call : NotedCall} (h : P call) (m : Recorded σ) (memory : σ) :
    Noted P m (memory, m.2 ++ [call]) :=
  ⟨[call], rfl, List.forall_mem_singleton.2 h⟩

end Recorded

/-- The result of a call of a stage that keeps a record, and the record with this call. -/
theorem Scene.exists_noted {α : Type} {P : NotedCall → Prop} {s : Scene (Recorded σ)} {number : Nat}
    {call : StageCall} (h : P (.stage number call s.context)) (x : α × Scene σ) :
    ∃ a s', Recorded.result x (s.noted number call) = (a, s') ∧
      Recorded.Noted P s.memory s'.memory := by
  exact ⟨_, _, rfl, Recorded.noted_concat h s.memory x.2.memory⟩

theorem Scene.exists_answer {α : Type} {P : NotedCall → Prop} {s : Scene (Recorded σ)}
    {number : Nat} {call : StageCall} (h : P (.stage number call s.context)) (x : α × σ) :
    ∃ a m, Recorded.answer x (s.noted number call) = (a, m) ∧ Recorded.Noted P s.memory m := by
  exact ⟨_, _, rfl, Recorded.noted_concat h s.memory x.2⟩

/-! ## Subscribers -/

namespace Subscriber

variable {P : NotedCall → Prop} {bs : List (Nat × Subscriber σ)}

theorem noted_tell {notice : Notice} (h : ∀ n, P (.subscriber n (.notify notice)))
    (m : Recorded σ) : Recorded.Noted P m (tell (recordings bs) notice m) := by
  obtain ⟨memory, calls⟩ := m
  refine ⟨bs.map fun b ↦ .subscriber b.1 (.notify notice), ?_, fun call hcall ↦ ?_⟩
  · rw [tell_recordings]
  · obtain ⟨b, -, rfl⟩ := List.mem_map.1 hcall
    exact h b.1

theorem noted_tellAll {notices : List Notice}
    (h : ∀ notice ∈ notices, ∀ n, P (.subscriber n (.notify notice))) (m : Recorded σ) :
    Recorded.Noted P m (tellAll (recordings bs) notices m) := by
  induction notices generalizing m with
  | nil => exact .refl m
  | cons notice notices ih =>
    obtain ⟨hnotice, hrest⟩ := List.forall_mem_cons.1 h
    exact (noted_tell hnotice m).trans (ih hrest _)

theorem calls_tellAll (bs : List (Nat × Subscriber σ)) (notices : List Notice) (m : Recorded σ) :
    (tellAll (recordings bs) notices m).2 = m.2 ++ NotedCall.tellings bs notices :=
  congrArg Prod.snd (tellAll_recordings bs notices m.1 m.2)

end Subscriber

namespace Session

variable {given : Prop} {ms ms' : List Message} {doc doc' : Json} {notices : List Notice}

/-- What is told of the changes of a session is not told of a run. -/
theorem Announced.isLifecycle (h : Announced given ms doc notices ms' doc') :
    ∀ notice ∈ notices, notice.isLifecycle = false := by
  induction h with
  | silent => exact List.forall_mem_nil _
  | message _ _ _ ih => exact List.forall_mem_append.2 ⟨ih, List.forall_mem_singleton.2 rfl⟩
  | call _ _ _ _ _ ih => exact List.forall_mem_append.2 ⟨ih, List.forall_mem_singleton.2 rfl⟩
  | messages _ _ ih => exact List.forall_mem_append.2 ⟨ih, List.forall_mem_singleton.2 rfl⟩
  | state _ _ ih => exact List.forall_mem_append.2 ⟨ih, List.forall_mem_singleton.2 rfl⟩

variable {s : Session} {bs : List (Nat × Subscriber σ)} {e : Event}

theorem noted_askGeneral (s : Session) (bs : List (Nat × Subscriber σ)) (e : Event)
    (m : Recorded σ) :
    Recorded.Noted NotedCall.IsProcessing m (s.askGeneral (Subscriber.recordings bs) e m).2 := by
  obtain ⟨memory, calls⟩ := m
  refine ⟨_, by rw [askGeneral_recordings], fun call hcall ↦ ?_⟩
  obtain ⟨b, -, rfl⟩ := List.mem_map.1 hcall
  exact .asked b.1 e s.view

theorem noted_askKind (s : Session) (bs : List (Nat × Subscriber σ)) (k : EventKind)
    (text : String) (m : Recorded σ) :
    Recorded.Noted NotedCall.IsProcessing m
      (s.askKind (Subscriber.recordings bs) k text m).2 := by
  obtain ⟨memory, calls⟩ := m
  refine ⟨_, by rw [askKind_recordings], fun call hcall ↦ ?_⟩
  obtain ⟨b, -, rfl⟩ := List.mem_map.1 hcall
  exact .askedKind b.1 k text s.view

theorem noted_memoryAfter (s : Session) (bs : List (Nat × Subscriber σ)) (e : Event)
    (m : Recorded σ) :
    Recorded.Noted NotedCall.IsProcessing m (s.memoryAfter (Subscriber.recordings bs) e m) := by
  have htold := (s.announced_apply e.kind).isLifecycle
  exact (s.noted_askGeneral bs e m).trans
    (Subscriber.noted_tellAll (fun notice hnotice n ↦ .told n (htold notice hnotice)) _)

theorem noted_handle (s : Session) (bs : List (Nat × Subscriber σ)) (e : Event) (m : Recorded σ) :
    Recorded.Noted NotedCall.IsProcessing m
      (s.handle (Subscriber.recordings bs) e m).memory := by
  by_cases hpasses : s.passes (Subscriber.recordings bs) e m = true
  · have hafter := s.noted_memoryAfter bs e m
    cases houtcome : (s.apply e.kind).outcome with
    | error failure =>
      rw [handle_of_apply_error hpasses houtcome]
      exact hafter
    | ok text =>
      rw [handle_of_apply_ok hpasses houtcome]
      exact hafter.trans ((s.apply e.kind).session.noted_askKind bs e.kind text _)
  · rw [(handle_of_not_passes hpasses).2]
    exact s.noted_askGeneral bs e m

theorem noted_commit (s : Session) (bs : List (Nat × Subscriber σ)) (mutation : Mutation)
    (m : Recorded σ) :
    Recorded.Noted NotedCall.IsProcessing m
      (s.commit (Subscriber.recordings bs) mutation m).2 :=
  Subscriber.noted_tellAll
    (fun notice hnotice n ↦ .told n ((s.announced_mutate mutation).isLifecycle notice hnotice)) m

end Session

/-! ## Stages -/

namespace Chain

open Recorded (Noted)

theorem noted_request (gs : List (Nat × Stage σ)) (input : RunInput) (s : Scene (Recorded σ)) :
    Noted NotedCall.IsPreparing s.memory
      (request (Stage.recordings gs) input s).2.memory := by
  induction gs generalizing input s with
  | nil => exact .refl _
  | cons g gs ih =>
    obtain ⟨admitted, m, hadmits, hm⟩ : ∃ admitted m,
        (g.2.recording g.1).admitsRun input s = (admitted, m) ∧
          Noted NotedCall.IsPreparing s.memory m := Scene.exists_answer (.admitsRun _ _ _) _
    obtain ⟨input', s', hrequest, hs'⟩ : ∃ input' s',
        (g.2.recording g.1).onRequest input (s.recall m) = (input', s') ∧
          Noted NotedCall.IsPreparing m s'.memory := Scene.exists_noted (.onRequest _ _ _) _
    rw [Stage.recordings, List.map_cons, ← Stage.recordings]
    simp only [request, hadmits, hrequest]
    split
    · exact (hm.trans hs').trans (ih input' s')
    · exact hm.trans hs'

theorem noted_passage (gs : List (Nat × Stage σ)) (e : Event) (s : Scene (Recorded σ)) :
    Noted NotedCall.IsProcessing s.memory (passage (Stage.recordings gs) e s).2.memory := by
  induction gs generalizing e s with
  | nil => exact .refl _
  | cons g gs ih =>
    obtain ⟨admitted, m, hadmits, hm⟩ : ∃ admitted m,
        (g.2.recording g.1).admitsEvent e s = (admitted, m) ∧
          Noted NotedCall.IsProcessing s.memory m := Scene.exists_answer (.admitsEvent _ _ _) _
    obtain ⟨before, s₁, hbefore, hs₁⟩ : ∃ before s₁,
        (g.2.recording g.1).beforeEvent e (s.recall m) = (before, s₁) ∧
          Noted NotedCall.IsProcessing m s₁.memory := Scene.exists_noted (.beforeEvent _ _ _) _
    obtain ⟨current, s₂, hcurrent, hs₂⟩ : ∃ current s₂,
        (g.2.recording g.1).onEvent e s₁ = (current, s₂) ∧
          Noted NotedCall.IsProcessing s₁.memory s₂.memory :=
      Scene.exists_noted (.onEvent _ _ _) _
    rw [Stage.recordings, List.map_cons, ← Stage.recordings]
    simp only [passage, hadmits, hbefore, hcurrent]
    split
    · cases current with
      | none => exact (hm.trans hs₁).trans hs₂
      | some e' =>
        obtain ⟨after, s₃, hafter, hs₃⟩ : ∃ after s₃,
            (g.2.recording g.1).afterEvent e' s₂ = (after, s₃) ∧
              Noted NotedCall.IsProcessing s₂.memory s₃.memory :=
          Scene.exists_noted (.afterEvent _ _ _) _
        have hrest := (((hm.trans hs₁).trans hs₂).trans hs₃).trans (ih e' s₃)
        simp only [hafter]
        rcases hp : passage (Stage.recordings gs) e' s₃ with ⟨_ | rest, s₄⟩
        · rw [hp] at hrest
          exact hrest
        · rw [hp] at hrest
          exact hrest
    · exact hm

theorem noted_event (gs : List (Nat × Stage σ)) (e : Event) (s : Scene (Recorded σ)) :
    Noted NotedCall.IsProcessing s.memory (event (Stage.recordings gs) e s).2.memory := by
  have hpassage := noted_passage gs e s
  rw [event]
  rcases hp : passage (Stage.recordings gs) e s with ⟨_ | p, s'⟩
  · rw [hp] at hpassage
    exact hpassage
  · rw [hp] at hpassage
    exact hpassage

theorem noted_response (gs : List (Nat × Stage σ)) (result : RunResult) (s : Scene (Recorded σ)) :
    Noted NotedCall.IsFinishing s.memory
      (response (Stage.recordings gs) result s).2.memory := by
  induction gs with
  | nil => exact .refl _
  | cons g gs ih =>
    obtain ⟨result', s', hinner, hs'⟩ : ∃ result' s',
        response (Stage.recordings gs) result s = (result', s') ∧
          Noted NotedCall.IsFinishing s.memory s'.memory := ⟨_, _, rfl, ih⟩
    have hcons : response (Stage.recordings (g :: gs)) result s =
        (g.2.recording g.1).onResponse result' s' :=
      congrArg (fun x : RunResult × Scene (Recorded σ) ↦
        (g.2.recording g.1).onResponse x.1 x.2) hinner
    obtain ⟨result'', s'', hresponse, hs''⟩ : ∃ result'' s'',
        (g.2.recording g.1).onResponse result' s' = (result'', s'') ∧
          Noted NotedCall.IsFinishing s'.memory s''.memory :=
      Scene.exists_noted (.onResponse _ _ _) _
    rw [hcons, hresponse]
    exact hs'.trans hs''

/-- Stages are shown a failure up to the first that suppresses it, which is then the last that is
called. -/
theorem noted_error (gs : List (Nat × Stage σ)) (failure : Failure) (s : Scene (Recorded σ)) :
    (∃ failure' s', error (Stage.recordings gs) failure s = (some failure', s') ∧
        Noted NotedCall.IsFailing s.memory s'.memory) ∨
      ∃ s' m n g failure' seen, error (Stage.recordings gs) failure s = (none, s') ∧
        Noted NotedCall.IsFailing s.memory m ∧ (n, g) ∈ gs ∧
        (g.onError failure' seen).1 = none ∧
        s'.memory.2 = m.2 ++ [.stage n (.onError failure') seen.context] := by
  induction gs with
  | nil => exact .inl ⟨failure, s, rfl, .refl _⟩
  | cons g gs ih =>
    have hcons : error (Stage.recordings (g :: gs)) failure s =
        match error (Stage.recordings gs) failure s with
        | (some failure', s') => (g.2.recording g.1).onError failure' s'
        | (none, s') => (none, s') := by
      rw [error, Stage.recordings, List.map_cons, List.foldr_cons, ← Stage.recordings, ← error]
      rcases error (Stage.recordings gs) failure s with ⟨_ | failure', s'⟩
      · rfl
      · rfl
    rw [hcons]
    rcases ih with ⟨failure', s', hinner, hs'⟩ |
      ⟨s', m, n, g', failure', seen, hinner, hm, hg', hnone, hlast⟩
    · rw [hinner]
      have hcalled : (g.2.recording g.1).onError failure' s' =
        Recorded.result (g.2.onError failure' s'.forget) (s'.noted g.1 (.onError failure')) := rfl
      dsimp only
      rw [hcalled]
      cases hleft : (g.2.onError failure' s'.forget).1 with
      | some left =>
        have hnoted := Recorded.noted_concat
          (NotedCall.IsFailing.onError g.1 failure' s'.forget.context) s'.memory
        exact .inl ⟨left, _, Prod.ext hleft rfl, hs'.trans (hnoted _)⟩
      | none =>
        exact .inr ⟨_, s'.memory, g.1, g.2, failure', s'.forget, Prod.ext hleft rfl, hs',
          List.mem_cons_self, hleft, rfl⟩
    · rw [hinner]
      exact .inr ⟨s', m, n, g', failure', seen, rfl, hm, List.mem_cons_of_mem _ hg', hnone, hlast⟩

end Chain

end AgentSession
