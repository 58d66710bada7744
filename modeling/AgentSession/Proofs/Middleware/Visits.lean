import AgentSession.Middleware.Builtin
import AgentSession.Proofs.Agent.Record
import Mathlib.Data.List.Chain
/-!
# The stages that an event visits

An event comes to the stages of a chain one after the other, until one of them refuses or drops it.
A `Visit` is a stage together with what comes to it. It tells which functions of the stage are
called, with what, and what is left, so `Chain.visits` tells this for the whole chain.

What a chain makes of an event is read off its visits (`Chain.event_visits`): unless a visited stage
refuses, all events that are to come before it, the event itself if none has dropped it, and all
events that are to come after it. Which calls are made is told by stages that keep a record. A stage
that passes every event as it is may be anywhere in a chain, or not be there.
-/

namespace AgentSession

variable {σ : Type}

/-! ## Visits -/

/-- A stage with its number, and the event that comes to it in a scene. -/
structure Visit (σ : Type) where
  number : Nat
  stage : Stage σ
  event : Event
  scene : Scene σ

namespace Visit

variable (v : Visit σ)

/-- The stage with its number. -/
def entry : Nat × Stage σ := (v.number, v.stage)

/-- The stage does not refuse the event. -/
def admitted : Bool := (v.stage.admitsEvent v.event v.scene).1

/-- The scene when the stage has been asked whether the event may be handled. -/
def asked : Scene σ := v.scene.recall (v.stage.admitsEvent v.event v.scene).2

/-- The scene when the stage has been asked for events before the event. -/
def prepared : Scene σ := (v.stage.beforeEvent v.event v.asked).2

/-- The scene when the stage has acted on the event. -/
def acted : Scene σ := (v.stage.onEvent v.event v.prepared).2

/-- What is left of the event; nothing, if the stage refuses or drops it. -/
def result : Option Event :=
  if v.admitted then (v.stage.onEvent v.event v.prepared).1 else none

/-- The events that the stage adds before the event. -/
def before : List Event := if v.admitted then (v.stage.beforeEvent v.event v.asked).1 else []

/-- The events that the stage adds after the event, if it is left. -/
def after : List Event :=
  match v.result with
  | some e => (v.stage.afterEvent e v.acted).1
  | none => []

/-- The scene that the stage leaves. -/
def left : Scene σ :=
  if v.admitted then
    match v.result with
    | some e => (v.stage.afterEvent e v.acted).2
    | none => v.acted
  else v.asked

/-- A call of the stage in a scene. -/
def call (call : StageCall) (s : Scene σ) : NotedCall := .stage v.number call s.context

/-- The calls of the stage, in their order. -/
def calls : List NotedCall :=
  v.call (.admitsEvent v.event) v.scene ::
    if v.admitted then
      v.call (.beforeEvent v.event) v.asked :: v.call (.onEvent v.event) v.prepared ::
        match v.result with
        | some e => [v.call (.afterEvent e) v.acted]
        | none => []
    else []

/-- The visit of a stage that keeps a record. -/
def recorded (calls : List NotedCall) : Visit (Recorded σ) :=
  ⟨v.number, v.stage.recording v.number, v.event, v.scene.recorded calls⟩

variable {v}

theorem result_of_refused (h : v.admitted = false) : v.result = none :=
  if_neg (Bool.not_eq_true _ ▸ h)

theorem admitted_of_result {e : Event} (h : v.result = some e) : v.admitted = true := by
  cases hadmitted : v.admitted with
  | true => rfl
  | false => exact absurd ((result_of_refused hadmitted).symm.trans h) nofun

theorem left_of_refused (h : v.admitted = false) : v.left = v.asked :=
  if_neg (Bool.not_eq_true _ ▸ h)

theorem calls_of_refused (h : v.admitted = false) :
    v.calls = [v.call (.admitsEvent v.event) v.scene] :=
  congrArg (v.call (.admitsEvent v.event) v.scene :: ·) (if_neg (Bool.not_eq_true _ ▸ h))

theorem after_of_none (h : v.result = none) : v.after = [] := by
  rw [after, h]

theorem after_of_some {e : Event} (h : v.result = some e) :
    v.after = (v.stage.afterEvent e v.acted).1 := by
  rw [after, h]

theorem left_of_some {e : Event} (h : v.result = some e) :
    v.left = (v.stage.afterEvent e v.acted).2 := by
  rw [left, if_pos (admitted_of_result h), h]

theorem left_of_dropped (h : v.admitted = true) (hresult : v.result = none) :
    v.left = v.acted := by
  rw [left, if_pos h, hresult]

/-! ### The functions of the stage -/

theorem admitsEvent_eq (v : Visit σ) :
    v.stage.admitsEvent v.event v.scene = (v.admitted, v.asked.memory) := rfl

theorem beforeEvent_eq (h : v.admitted = true) :
    v.stage.beforeEvent v.event (v.scene.recall v.asked.memory) = (v.before, v.prepared) :=
  Prod.ext (if_pos h).symm rfl

theorem onEvent_eq (h : v.admitted = true) :
    v.stage.onEvent v.event v.prepared = (v.result, v.acted) :=
  Prod.ext (if_pos h).symm rfl

theorem afterEvent_eq {e : Event} (h : v.result = some e) :
    v.stage.afterEvent e v.acted = (v.after, v.left) :=
  Prod.ext (after_of_some h).symm (left_of_some h).symm

/-! ### With a record -/

theorem result_recorded (v : Visit σ) (calls : List NotedCall) :
    (v.recorded calls).result = v.result := rfl

theorem after_recorded (v : Visit σ) (calls : List NotedCall) :
    (v.recorded calls).after = v.after := by
  rw [after, after, result_recorded]
  cases v.result with
  | none => rfl
  | some e => rfl

/-- The record grows by the calls of the visit. -/
theorem left_recorded (v : Visit σ) (calls : List NotedCall) :
    (v.recorded calls).left = v.left.recorded (calls ++ v.calls) := by
  cases h : v.admitted with
  | false =>
    rw [left_of_refused h, calls_of_refused h]
    exact left_of_refused h
  | true =>
    have hadmitted : (v.recorded calls).admitted = true := h
    -- three calls are made whatever the stage makes of the event
    have hacted : (v.recorded calls).acted = v.acted.recorded (calls ++
        [v.call (.admitsEvent v.event) v.scene, v.call (.beforeEvent v.event) v.asked,
          v.call (.onEvent v.event) v.prepared]) := by
      rw [List.append_cons, List.append_cons]
      rfl
    rw [left, left, Visit.calls, if_pos h, if_pos h, if_pos hadmitted, result_recorded, hacted]
    cases v.result with
    | none => rfl
    | some e => exact congrArg (v.stage.afterEvent e v.acted).2.recorded (List.append_assoc ..)

end Visit

/-! ## The visits of an event -/

namespace Chain

/-- The visits of an event to a chain of stages with their numbers. -/
def visits : List (Nat × Stage σ) → Event → Scene σ → List (Visit σ)
  | [], _, _ => []
  | g :: gs, e, s =>
    let v : Visit σ := ⟨g.1, g.2, e, s⟩
    v :: match v.result with
      | some e => visits gs e v.left
      | none => []

theorem visits_of_none {v : Visit σ} (h : v.result = none) (gs : List (Nat × Stage σ)) :
    visits (v.entry :: gs) v.event v.scene = [v] := by
  change (v :: match v.result with | some e => visits gs e v.left | none => []) = _
  rw [h]

theorem visits_of_some {v : Visit σ} {e : Event} (h : v.result = some e)
    (gs : List (Nat × Stage σ)) :
    visits (v.entry :: gs) v.event v.scene = v :: visits gs e v.left := by
  change (v :: match v.result with | some e => visits gs e v.left | none => []) = _
  rw [h]

/-- Induction on the visits of an event: the first stage refuses or drops it, or leaves something of
it to the others. -/
@[elab_as_elim]
theorem visit_induction {motive : List (Nat × Stage σ) → Event → Scene σ → Prop}
    (nil : ∀ e s, motive [] e s)
    (none : ∀ (v : Visit σ) gs, v.result = none → motive (v.entry :: gs) v.event v.scene)
    (some : ∀ (v : Visit σ) gs e, v.result = some e → motive gs e v.left →
      motive (v.entry :: gs) v.event v.scene)
    (gs : List (Nat × Stage σ)) (e : Event) (s : Scene σ) : motive gs e s := by
  induction gs generalizing e s with
  | nil => exact nil e s
  | cons g gs ih =>
    let v : Visit σ := ⟨g.1, g.2, e, s⟩
    cases h : v.result with
    | none => exact none v gs h
    | some e' => exact some v gs e' h (ih e' v.left)

/-- The event comes to the stages of a chain in their order, as long as there is something left
of it. -/
structure Passed (gs : List (Nat × Stage σ)) (e : Event) (s : Scene σ) (vs : List (Visit σ)) :
    Prop where
  /-- The visited stages are the first ones of the chain, and none is passed over. -/
  inOrder : vs.map Visit.entry <+: gs
  /-- The first one is visited by the event as it came. -/
  first : ∀ v ∈ vs.head?, v.event = e ∧ v.scene = s
  /-- Each further one is visited by what the one before it has left. -/
  linked : vs.IsChain fun v w ↦ v.result = some w.event ∧ v.left = w.scene
  /-- If there are stages that are not visited, the last one that is has left nothing. -/
  ended : vs.length < gs.length → ∃ v ∈ vs.getLast?, v.result = none

theorem passed_visits (gs : List (Nat × Stage σ)) (e : Event) (s : Scene σ) :
    Passed gs e s (visits gs e s) := by
  induction gs, e, s using visit_induction with
  | nil e s =>
    change Passed [] e s []
    exact ⟨List.nil_prefix, fun v h ↦ absurd h (Option.not_mem_none v), .nil,
      fun h ↦ absurd h (Nat.lt_irrefl 0)⟩
  | none v gs h =>
    rw [visits_of_none h]
    refine ⟨List.cons_prefix_cons.2 ⟨rfl, List.nil_prefix⟩, ?_, .singleton v, fun _ ↦ ⟨v, rfl, h⟩⟩
    rintro w ⟨⟩
    exact ⟨rfl, rfl⟩
  | some v gs e h ih =>
    rw [visits_of_some h]
    refine ⟨List.cons_prefix_cons.2 ⟨rfl, ih.inOrder⟩, ?_, ?_, fun hlength ↦ ?_⟩
    · rintro w ⟨⟩
      exact ⟨rfl, rfl⟩
    · refine List.isChain_cons.2 ⟨fun w hw ↦ ?_, ih.linked⟩
      obtain ⟨hevent, hscene⟩ := ih.first w hw
      exact ⟨h.trans (congrArg some hevent.symm), hscene.symm⟩
    · obtain ⟨w, hw, hnone⟩ := ih.ended (Nat.lt_of_succ_lt_succ hlength)
      exact ⟨w, List.mem_getLast?_cons hw, hnone⟩

/-! ## What comes of an event -/

/-- What some visits leave of an event and a scene. -/
def remains (vs : List (Visit σ)) (e : Event) (s : Scene σ) : Option Event × Scene σ :=
  (vs.map fun v ↦ (v.result, v.left)).getLastD (some e, s)

/-- All events that come of some visits, if no stage refuses. -/
def produced (vs : List (Visit σ)) (e : Event) (s : Scene σ) : List Event :=
  vs.flatMap Visit.before ++ (remains vs e s).1.toList ++ vs.flatMap Visit.after

theorem passage_of_none {v : Visit σ} (h : v.result = none) (stages : List (Stage σ)) :
    passage (v.stage :: stages) v.event v.scene =
      (if v.admitted then some { before := v.before } else none, v.left) := by
  cases hadmitted : v.admitted with
  | false =>
    rw [Visit.left_of_refused hadmitted, passage]
    exact if_neg (Bool.not_eq_true _ ▸ hadmitted)
  | true =>
    rw [Visit.left_of_dropped hadmitted h]
    simp only [passage, v.admitsEvent_eq, Visit.beforeEvent_eq hadmitted,
      Visit.onEvent_eq hadmitted, hadmitted, h, if_true]

theorem passage_of_some {v : Visit σ} {e : Event} (h : v.result = some e)
    (stages : List (Stage σ)) :
    passage (v.stage :: stages) v.event v.scene =
      ((passage stages e v.left).1.map fun rest ↦
          ⟨v.before ++ rest.before, rest.current, v.after ++ rest.after⟩,
        (passage stages e v.left).2) := by
  have hadmitted := Visit.admitted_of_result h
  simp only [passage, v.admitsEvent_eq, Visit.beforeEvent_eq hadmitted,
    Visit.onEvent_eq hadmitted, Visit.afterEvent_eq h, hadmitted, h, if_true]
  rcases passage stages e v.left with ⟨_ | rest, s⟩
  · rfl
  · rfl

theorem remains_cons_of_some {v : Visit σ} {e' : Event} (h : v.result = some e')
    (vs : List (Visit σ)) (e : Event) (s : Scene σ) :
    remains (v :: vs) e s = remains vs e' v.left := by
  rw [remains, List.map_cons, List.getLastD_cons, h]
  rfl

/-- What becomes of an event, in terms of its visits. -/
theorem passage_visits (gs : List (Nat × Stage σ)) (e : Event) (s : Scene σ) :
    let vs := visits gs e s
    passage (gs.map Prod.snd) e s =
      (if vs.all Visit.admitted then
          some ⟨vs.flatMap Visit.before, (remains vs e s).1, vs.flatMap Visit.after⟩
        else none,
        (remains vs e s).2) := by
  induction gs, e, s using visit_induction with
  | nil e s => rfl
  | none v gs h =>
    rw [visits_of_none h, List.map_cons]
    refine (passage_of_none h _).trans ?_
    simp only [List.all_cons, List.all_nil, Bool.and_true, List.flatMap_cons, List.flatMap_nil,
      List.append_nil, Visit.after_of_none h, remains, List.map_cons, List.map_nil,
      List.getLastD_cons, List.getLastD_nil, h]
  | some v gs e h ih =>
    rw [visits_of_some h, List.map_cons]
    refine (passage_of_some h _).trans ?_
    rw [ih, remains_cons_of_some h, List.all_cons, Visit.admitted_of_result h, Bool.true_and]
    cases (visits gs e v.left).all Visit.admitted with
    | true => rfl
    | false => rfl

/-- Stages that keep a record make the same of an event, and the record grows by the calls of the
visits. -/
theorem passage_recordings (gs : List (Nat × Stage σ)) (e : Event) (s : Scene σ)
    (calls : List NotedCall) :
    passage (Stage.recordings gs) e (s.recorded calls) =
      Recorded.result (passage (gs.map Prod.snd) e s)
        (calls ++ (visits gs e s).flatMap Visit.calls) := by
  induction gs, e, s using visit_induction generalizing calls with
  | nil e s => exact congrArg (fun c ↦ (_, s.recorded c)) (List.append_nil calls).symm
  | none v gs h =>
    -- a visit with a record has the same result, so the chain goes on in the same way
    have hrecorded := passage_of_none (v := v.recorded calls) h (Stage.recordings gs)
    rw [visits_of_none h, List.flatMap_singleton, List.map_cons]
    refine hrecorded.trans ?_
    rw [Visit.left_recorded]
    exact congrArg (Recorded.result · (calls ++ v.calls)) (passage_of_none h _).symm
  | some v gs e h ih =>
    have hrecorded := passage_of_some (v := v.recorded calls) h (Stage.recordings gs)
    rw [visits_of_some h, List.flatMap_cons, List.map_cons, ← List.append_assoc]
    refine hrecorded.trans ?_
    rw [Visit.left_recorded, Visit.after_recorded, ih]
    exact congrArg (Recorded.result · _) (passage_of_some h _).symm

theorem event_recordings (gs : List (Nat × Stage σ)) (e : Event) (s : Scene σ)
    (calls : List NotedCall) :
    event (Stage.recordings gs) e (s.recorded calls) =
      Recorded.result (event (gs.map Prod.snd) e s)
        (calls ++ (visits gs e s).flatMap Visit.calls) := by
  rw [event, event, passage_recordings]
  rcases passage (gs.map Prod.snd) e s with ⟨_ | p, s'⟩
  · rfl
  · rfl

theorem event_eq_produced (gs : List (Nat × Stage σ)) (e : Event) (s : Scene σ) :
    let vs := visits gs e s
    event (gs.map Prod.snd) e s =
      (if vs.all Visit.admitted then produced vs e s else [], (remains vs e s).2) := by
  intro vs
  rw [event, passage_visits]
  cases vs.all Visit.admitted with
  | true => rfl
  | false => rfl

/-! ## Stages that pass everything -/

end Chain

/-- A stage passes every event as it is. -/
structure Stage.PassesEvents (g : Stage σ) : Prop where
  admitsEvent : ∀ e s, g.admitsEvent e s = (true, s.memory)
  beforeEvent : ∀ e s, g.beforeEvent e s = ([], s)
  onEvent : ∀ e s, g.onEvent e s = (some e, s)
  afterEvent : ∀ e s, g.afterEvent e s = ([], s)

theorem Stage.passesEvents_logging : (logging : Stage σ).PassesEvents :=
  ⟨fun _ _ ↦ rfl, fun _ _ ↦ rfl, fun _ _ ↦ rfl, fun _ _ ↦ rfl⟩

/-- The second chain is the first one with some more stages, anywhere in it, that pass every event
as it is. -/
inductive Stage.Padded : List (Stage σ) → List (Stage σ) → Prop where
  | nil : Padded [] []
  | keep (g : Stage σ) {stages padded : List (Stage σ)} (h : Padded stages padded) :
    Padded (g :: stages) (g :: padded)
  | pad {g : Stage σ} (hg : g.PassesEvents) {stages padded : List (Stage σ)}
    (h : Padded stages padded) : Padded stages (g :: padded)

namespace Chain

theorem passage_of_passesEvents {g : Stage σ} (hg : g.PassesEvents) (stages : List (Stage σ))
    (e : Event) (s : Scene σ) : passage (g :: stages) e s = passage stages e s := by
  let v : Visit σ := ⟨0, g, e, s⟩
  have hadmitted : v.admitted = true := congrArg Prod.fst (hg.admitsEvent e s)
  have hasked : v.asked = s := by
    rw [Visit.asked, hg.admitsEvent]
    rfl
  have hprepared : v.prepared = s := by rw [Visit.prepared, hasked, hg.beforeEvent]
  have hacted : v.acted = s := by rw [Visit.acted, hprepared, hg.onEvent]
  have hresult : v.result = some e := by rw [Visit.result, if_pos hadmitted, hprepared, hg.onEvent]
  have hbefore : v.before = [] := by rw [Visit.before, if_pos hadmitted, hg.beforeEvent]
  have hafter : v.after = [] := by rw [Visit.after_of_some hresult, hg.afterEvent]
  have hleft : v.left = s := by rw [Visit.left_of_some hresult, hacted, hg.afterEvent]
  refine (passage_of_some (v := v) hresult stages).trans ?_
  rw [hleft, hbefore, hafter]
  exact Prod.ext Option.map_id' rfl

theorem passage_padded {stages padded : List (Stage σ)} (h : Stage.Padded stages padded)
    (e : Event) (s : Scene σ) : passage padded e s = passage stages e s := by
  induction h generalizing e s with
  | nil => rfl
  | keep g h ih =>
    let v : Visit σ := ⟨0, g, e, s⟩
    cases hresult : v.result with
    | none => exact (passage_of_none hresult _).trans (passage_of_none hresult _).symm
    | some e' =>
      refine (passage_of_some hresult _).trans ?_
      rw [ih]
      exact (passage_of_some hresult _).symm
  | pad hg h ih => rw [passage_of_passesEvents hg, ih]

theorem event_padded {stages padded : List (Stage σ)} (h : Stage.Padded stages padded)
    (e : Event) (s : Scene σ) : event padded e s = event stages e s := by
  rw [event, passage_padded h, event]

/-! ## All in all -/

/-- **What a chain makes of an event.** The event visits the stages in their order, until one of
them refuses or drops it, and the calls that are made are those of the visits. Nothing is to be
handled if a visited stage refuses. Otherwise it is what the visits produce: all events before, what
is left of the event, and all events after. A stage that leaves nothing of the event adds nothing
after it. Stages that pass every event as it is make no difference to this, to the scene or to what
other stages are called with. -/
theorem event_visits (gs : List (Nat × Stage σ)) (e : Event) (s : Scene σ)
    (calls : List NotedCall) :
    let stages := gs.map Prod.snd
    let vs := visits gs e s
    Passed gs e s vs ∧
      event (Stage.recordings gs) e (s.recorded calls) =
        Recorded.result (event stages e s) (calls ++ vs.flatMap Visit.calls) ∧
      event stages e s =
        (if vs.all Visit.admitted then produced vs e s else [], (remains vs e s).2) ∧
      ((event stages e s).1 = [] ↔ (∃ v ∈ vs, v.admitted = false) ∨ produced vs e s = []) ∧
      (∀ v ∈ vs, v.result = none → v.after = []) ∧
      (∀ padded, Stage.Padded stages padded → event padded e s = event stages e s) ∧
      ∀ padded, Stage.Padded (Stage.recordings gs) padded →
        event padded e (s.recorded calls) = event (Stage.recordings gs) e (s.recorded calls) := by
  intro stages vs
  have hempty : (event stages e s).1 = [] ↔
      (∃ v ∈ vs, v.admitted = false) ∨ produced vs e s = [] := by
    have hrefused : vs.all Visit.admitted = false ↔ ∃ v ∈ vs, v.admitted = false := by
      rw [List.all_eq_false]
      exact exists_congr fun v ↦ and_congr_right fun _ ↦ Bool.not_eq_true _ ▸ Iff.rfl
    rw [event_eq_produced, ← hrefused]
    cases vs.all Visit.admitted with
    | true => exact (or_iff_right Bool.noConfusion).symm
    | false => exact iff_of_true rfl (.inl rfl)
  exact ⟨passed_visits gs e s, event_recordings gs e s calls, event_eq_produced gs e s, hempty,
    fun v _ ↦ Visit.after_of_none, fun _ h ↦ event_padded h e s,
    fun _ h ↦ event_padded h e (s.recorded calls)⟩

/-- A stage adds events before and after, one passes everything, one drops the event, and the last
one, which would refuse it, is not visited. -/
theorem event_visits_dropped :
    let custom (name : String) : Event := { kind := .custom name .null, timestamp := 0 }
    let adding : Stage Unit :=
      { beforeEvent := fun _ s ↦ ([custom "before"], s)
        afterEvent := fun _ s ↦ ([custom "after"], s) }
    let dropping : Stage Unit :=
      { beforeEvent := fun _ s ↦ ([custom "instead"], s)
        onEvent := fun _ s ↦ (none, s) }
    let refusing : Stage Unit := { admitsEvent := fun _ s ↦ (false, s.memory) }
    let s : Scene Unit := ⟨{ messages := [], state := .null, now := 0 }, ()⟩
    let gs := [(1, adding), (2, dropping), (3, refusing)]
    let call (number : Nat) (call : StageCall) : NotedCall := .stage number call s.context
    Stage.Padded [adding, dropping, refusing] [adding, .logging, dropping, refusing] ∧
      event [adding, .logging, dropping, refusing] (custom "e") s =
        ([custom "before", custom "instead", custom "after"], s) ∧
      (event (Stage.recordings gs) (custom "e") (s.recorded [])).2.memory.2 =
        [call 1 (.admitsEvent (custom "e")), call 1 (.beforeEvent (custom "e")),
          call 1 (.onEvent (custom "e")), call 1 (.afterEvent (custom "e")),
          call 2 (.admitsEvent (custom "e")), call 2 (.beforeEvent (custom "e")),
          call 2 (.onEvent (custom "e"))] := by
  intro custom adding dropping refusing s gs call
  have hpadded : Stage.Padded [adding, dropping, refusing] [adding, .logging, dropping, refusing] :=
    .keep _ (.pad Stage.passesEvents_logging (.keep _ (.keep _ .nil)))
  obtain ⟨-, hrecord, hevent, -, -, hpads, -⟩ := event_visits gs (custom "e") s []
  refine ⟨hpadded, (hpads _ hpadded).trans hevent, ?_⟩
  rw [hrecord]
  rfl

end Chain

end AgentSession
