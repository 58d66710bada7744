import AgentSession.Middleware.Builtin
import AgentSession.Proofs.Agent.Record
/-!
# Chains in sequence

A chain of stages may be cut in two anywhere. Requests pass the first part and then, unless a stage
of it halts them, the second. Results pass the second part and then the first, and so do failures,
unless a stage of the second part suppresses them (`Chain.phases_append`). This is so for what
becomes of them, for the scene, and for the calls that stages get. These are read off the record of
stages that keep one, which changes nothing else (`Chain.notes_request`, `Chain.notes_response`,
`Chain.notes_error`).

A stage that halts a request is the last one that is called, and acts on it nevertheless. So of a
request that is not halted, every stage is shown what the ones before it have made, and of a result
what the ones after it have made.
-/

namespace AgentSession

variable {σ : Type}

/-! ## Calls -/

/-- The calls that are noted when something is done in a scene. -/
def Scene.calls {α : Type} (s : Scene σ)
    (act : Scene (Recorded σ) → α × Scene (Recorded σ)) : List NotedCall :=
  (act (s.recorded [])).2.memory.2

/-- With a record something comes to the same in a scene, and adds some calls to the record,
whatever it holds already. -/
def Scene.Notes {α : Type} (s : Scene σ) (act : Scene (Recorded σ) → α × Scene (Recorded σ))
    (x : α × Scene σ) (added : List NotedCall) : Prop :=
  ∀ calls, act (s.recorded calls) = Recorded.result x (calls ++ added)

namespace Scene

variable {α β : Type} {s : Scene σ} {act : Scene (Recorded σ) → α × Scene (Recorded σ)}
  {next : α → Scene (Recorded σ) → β × Scene (Recorded σ)} {x : α × Scene σ} {y : β × Scene σ}
  {added added' : List NotedCall}

theorem Notes.calls_eq (h : s.Notes act x added) : s.calls act = added := by
  rw [calls, h []]
  rfl

theorem notes_calls (h : ∃ added, s.Notes act x added) : s.Notes act x (s.calls act) := by
  obtain ⟨added, h⟩ := h
  rw [h.calls_eq]
  exact h

theorem notes_nothing (s : Scene σ) (a : α) : s.Notes (fun t ↦ (a, t)) (a, s) [] :=
  fun calls ↦ congrArg (fun c ↦ (a, s.recorded c)) (List.append_nil calls).symm

/-- What is done next adds its calls. -/
theorem Notes.bind (h : s.Notes act x added) (hnext : x.2.Notes (next x.1) y added') :
    s.Notes (fun t ↦ next (act t).1 (act t).2) y (added ++ added') := by
  intro calls
  change next (act (s.recorded calls)).1 (act (s.recorded calls)).2 = _
  rw [h calls, ← List.append_assoc]
  exact hnext (calls ++ added)

end Scene

namespace NotedCall

/-- The number of the stage that acts on a request. -/
def request? : NotedCall → Option Nat
  | stage number (.onRequest _) _ => some number
  | _ => none

/-- The number of the stage that acts on a result. -/
def response? : NotedCall → Option Nat
  | stage number (.onResponse _) _ => some number
  | _ => none

end NotedCall

/-! ## Requests -/

/-- The scene of a run that may not go on. -/
def Scene.halted (s : Scene σ) : Scene σ :=
  { s with context := { s.context with proceed := false } }

namespace Stage

/-- A stage does not let a run go on. -/
def halts (g : Stage σ) (input : RunInput) (s : Scene σ) : Bool := !(g.admitsRun input s).1

/-- What a stage makes of a request, when it has been asked whether the run may go on. -/
def request (g : Stage σ) (input : RunInput) (s : Scene σ) : RunInput × Scene σ :=
  g.onRequest input (s.recall (g.admitsRun input s).2)

/-- The calls of the stage with a number for a request. -/
def requestCalls (number : Nat) (input : RunInput) (s : Scene σ) : List NotedCall :=
  [.stage number (.admitsRun input) s.context, .stage number (.onRequest input) s.context]

theorem notes_request (number : Nat) (g : Stage σ) (input : RunInput) (s : Scene σ) :
    s.Notes ((g.recording number).request input) (g.request input s)
      (requestCalls number input s) := by
  intro calls
  rw [requestCalls, List.append_cons]
  rfl

end Stage

namespace Chain

variable {g : Stage σ} {stages : List (Stage σ)} {input : RunInput} {s : Scene σ}

theorem request_of_halts (h : g.halts input s = true) (stages : List (Stage σ)) :
    request (g :: stages) input s = ((g.request input s).1, (g.request input s).2.halted) := by
  rw [request]
  exact if_neg (Bool.not_eq_true _ ▸ Bool.not_eq_true' _ ▸ h)

theorem request_of_not_halts (h : g.halts input s = false) (stages : List (Stage σ)) :
    request (g :: stages) input s = request stages (g.request input s).1 (g.request input s).2 := by
  rw [request]
  exact if_pos (Bool.not_eq_false' _ ▸ h)

/-- No stage halts a request. Each stage is shown what the ones before it have made of it. -/
def proceeds : List (Stage σ) → RunInput → Scene σ → Bool
  | [], _, _ => true
  | g :: stages, input, s =>
    !g.halts input s && proceeds stages (g.request input s).1 (g.request input s).2

/-- The calls of stages with their numbers for a request. -/
def requestCalls (gs : List (Nat × Stage σ)) (input : RunInput) (s : Scene σ) : List NotedCall :=
  s.calls (request (Stage.recordings gs) input)

theorem proceeds_of_not_halts (h : g.halts input s = false) (stages : List (Stage σ)) :
    proceeds (g :: stages) input s =
      proceeds stages (g.request input s).1 (g.request input s).2 := by
  rw [proceeds, h]
  rfl

theorem not_halts_of_proceeds (h : proceeds (g :: stages) input s = true) :
    g.halts input s = false :=
  Bool.not_eq_true' _ ▸ (Bool.and_eq_true_iff.1 h).1

theorem request_append_of_proceeds (h : proceeds stages input s = true)
    (stages' : List (Stage σ)) :
    request (stages ++ stages') input s =
      request stages' (request stages input s).1 (request stages input s).2 := by
  induction stages generalizing input s with
  | nil => rfl
  | cons g stages ih =>
    have hg := not_halts_of_proceeds h
    rw [proceeds_of_not_halts hg] at h
    rw [List.cons_append, request_of_not_halts hg, request_of_not_halts hg, ih h]

theorem request_append_of_not_proceeds (h : proceeds stages input s = false)
    (stages' : List (Stage σ)) :
    request (stages ++ stages') input s = request stages input s := by
  induction stages generalizing input s with
  | nil => cases h
  | cons g stages ih =>
    rw [List.cons_append]
    cases hg : g.halts input s with
    | true => rw [request_of_halts hg, request_of_halts hg]
    | false =>
      rw [proceeds_of_not_halts hg] at h
      rw [request_of_not_halts hg, request_of_not_halts hg, ih h]

/-- A request that does not proceed is halted by the first stage that halts it. -/
theorem exists_halts {gs : List (Nat × Stage σ)}
    (h : proceeds (gs.map Prod.snd) input s = false) :
    ∃ before g after, gs = before ++ g :: after ∧
      proceeds (before.map Prod.snd) input s = true ∧
        let reached := request (before.map Prod.snd) input s
        g.2.halts reached.1 reached.2 = true := by
  induction gs generalizing input s with
  | nil => cases h
  | cons g gs ih =>
    cases hg : g.2.halts input s with
    | true => exact ⟨[], g, gs, rfl, rfl, hg⟩
    | false =>
      rw [List.map_cons, proceeds_of_not_halts hg] at h
      obtain ⟨before, g', after, hgs, hbefore, hhalts⟩ := ih h
      refine ⟨g :: before, g', after, congrArg (g :: ·) hgs, ?_, ?_⟩
      · rw [List.map_cons, proceeds_of_not_halts hg, hbefore]
      · rw [List.map_cons, request_of_not_halts hg]
        exact hhalts

/-! ### Their calls -/

theorem proceeds_recordings (gs : List (Nat × Stage σ)) (input : RunInput) (s : Scene σ)
    (calls : List NotedCall) :
    proceeds (Stage.recordings gs) input (s.recorded calls) =
      proceeds (gs.map Prod.snd) input s := by
  induction gs generalizing input s calls with
  | nil => rfl
  | cons g gs ih =>
    have hstep := Stage.notes_request g.1 g.2 input s calls
    rw [Stage.recordings, List.map_cons, List.map_cons, ← Stage.recordings, proceeds, proceeds,
      hstep]
    exact congrArg (!g.2.halts input s && ·) (ih _ _ _)

variable {g : Nat × Stage σ} {gs : List (Nat × Stage σ)} {added : List NotedCall}

theorem notes_of_halts (h : g.2.halts input s = true) (gs : List (Nat × Stage σ)) :
    s.Notes (request (Stage.recordings (g :: gs)) input) (request ((g :: gs).map Prod.snd) input s)
      (Stage.requestCalls g.1 input s) := by
  intro calls
  have hrecorded : (g.2.recording g.1).halts input (s.recorded calls) = true := h
  rw [List.map_cons, request_of_halts h]
  refine (request_of_halts hrecorded (Stage.recordings gs)).trans ?_
  rw [Stage.notes_request g.1 g.2 input s calls]
  rfl

theorem notes_of_not_halts (h : g.2.halts input s = false)
    (hrest : (g.2.request input s).2.Notes
      (request (Stage.recordings gs) (g.2.request input s).1)
      (request (gs.map Prod.snd) (g.2.request input s).1 (g.2.request input s).2) added) :
    s.Notes (request (Stage.recordings (g :: gs)) input) (request ((g :: gs).map Prod.snd) input s)
      (Stage.requestCalls g.1 input s ++ added) := by
  intro calls
  have hrecorded : (g.2.recording g.1).halts input (s.recorded calls) = false := h
  rw [List.map_cons, request_of_not_halts h]
  refine (request_of_not_halts hrecorded (Stage.recordings gs)).trans ?_
  exact (Stage.notes_request g.1 g.2 input s).bind hrest calls

theorem notes_request (gs : List (Nat × Stage σ)) (input : RunInput) (s : Scene σ) :
    s.Notes (request (Stage.recordings gs) input) (request (gs.map Prod.snd) input s)
      (requestCalls gs input s) := by
  refine Scene.notes_calls ?_
  induction gs generalizing input s with
  | nil => exact ⟨[], s.notes_nothing input⟩
  | cons g gs ih =>
    cases h : g.2.halts input s with
    | true => exact ⟨_, notes_of_halts h gs⟩
    | false =>
      obtain ⟨added, hrest⟩ := ih (g.2.request input s).1 (g.2.request input s).2
      exact ⟨_, notes_of_not_halts h hrest⟩

theorem requestCalls_of_halts (h : g.2.halts input s = true) (gs : List (Nat × Stage σ)) :
    requestCalls (g :: gs) input s = Stage.requestCalls g.1 input s :=
  (notes_of_halts h gs).calls_eq

theorem requestCalls_of_not_halts (h : g.2.halts input s = false) (gs : List (Nat × Stage σ)) :
    requestCalls (g :: gs) input s =
      Stage.requestCalls g.1 input s ++
        requestCalls gs (g.2.request input s).1 (g.2.request input s).2 :=
  (notes_of_not_halts h (notes_request gs _ _)).calls_eq

theorem requestCalls_append_of_proceeds (h : proceeds (gs.map Prod.snd) input s = true)
    (gs' : List (Nat × Stage σ)) :
    let first := request (gs.map Prod.snd) input s
    requestCalls (gs ++ gs') input s =
      requestCalls gs input s ++ requestCalls gs' first.1 first.2 := by
  intro first
  have hboth := (notes_request gs input s).bind (notes_request gs' first.1 first.2)
  refine Scene.Notes.calls_eq (x := request (gs'.map Prod.snd) first.1 first.2) fun calls ↦ ?_
  have hrecorded : proceeds (Stage.recordings gs) input (s.recorded calls) = true :=
    (proceeds_recordings gs input s calls).trans h
  rw [Stage.recordings, List.map_append]
  exact (request_append_of_proceeds hrecorded _).trans (hboth calls)

theorem requestCalls_append_of_not_proceeds (h : proceeds (gs.map Prod.snd) input s = false)
    (gs' : List (Nat × Stage σ)) :
    requestCalls (gs ++ gs') input s = requestCalls gs input s := by
  refine Scene.Notes.calls_eq (x := request (gs.map Prod.snd) input s) fun calls ↦ ?_
  have hrecorded : proceeds (Stage.recordings gs) input (s.recorded calls) = false :=
    (proceeds_recordings gs input s calls).trans h
  rw [Stage.recordings, List.map_append]
  exact (request_append_of_not_proceeds hrecorded _).trans (notes_request gs input s calls)

/-- A request that is not halted is shown to all stages in their order. -/
theorem request?_requestCalls (h : proceeds (gs.map Prod.snd) input s = true) :
    (requestCalls gs input s).filterMap NotedCall.request? = gs.map Prod.fst := by
  induction gs generalizing input s with
  | nil => rfl
  | cons g gs ih =>
    have hg := not_halts_of_proceeds h
    rw [List.map_cons, proceeds_of_not_halts hg] at h
    rw [requestCalls_of_not_halts hg, List.filterMap_append, ih h]
    rfl

/-- A request is halted by the stage `g`, when the stages before it have let it pass. No later stage
is called, and what becomes of the request is what `g` makes of it. -/
structure HaltedBy (before : List (Nat × Stage σ)) (g : Nat × Stage σ) (gs : List (Nat × Stage σ))
    (input : RunInput) (s : Scene σ) : Prop where
  proceeds : Chain.proceeds (before.map Prod.snd) input s = true
  halts :
    let reached := request (before.map Prod.snd) input s
    g.2.halts reached.1 reached.2 = true
  result_eq :
    let reached := request (before.map Prod.snd) input s
    let acted := g.2.request reached.1 reached.2
    request (gs.map Prod.snd) input s = (acted.1, acted.2.halted)
  calls_eq :
    let reached := request (before.map Prod.snd) input s
    requestCalls gs input s =
      requestCalls before input s ++ Stage.requestCalls g.1 reached.1 reached.2

theorem exists_haltedBy (h : proceeds (gs.map Prod.snd) input s = false) :
    ∃ before g after, gs = before ++ g :: after ∧ HaltedBy before g gs input s := by
  obtain ⟨before, g, after, rfl, hbefore, hhalts⟩ := exists_halts h
  refine ⟨before, g, after, rfl, hbefore, hhalts, ?_, ?_⟩
  · rw [List.map_append, request_append_of_proceeds hbefore]
    exact request_of_halts hhalts _
  · rw [requestCalls_append_of_proceeds hbefore]
    exact congrArg (requestCalls before input s ++ ·) (requestCalls_of_halts hhalts after)

/-! ## Results -/

/-- The calls of stages with their numbers for a result. -/
def responseCalls (gs : List (Nat × Stage σ)) (result : RunResult) (s : Scene σ) :
    List NotedCall :=
  s.calls (response (Stage.recordings gs) result)

theorem response_append (stages stages' : List (Stage σ)) (result : RunResult) (s : Scene σ) :
    response (stages ++ stages') result s =
      response stages (response stages' result s).1 (response stages' result s).2 :=
  List.foldr_append

theorem notes_onResponse (number : Nat) (g : Stage σ) (result : RunResult) (s : Scene σ) :
    s.Notes ((g.recording number).onResponse result) (g.onResponse result s)
      [.stage number (.onResponse result) s.context] :=
  fun _ ↦ rfl

theorem notes_response (gs : List (Nat × Stage σ)) (result : RunResult) (s : Scene σ) :
    s.Notes (response (Stage.recordings gs) result) (response (gs.map Prod.snd) result s)
      (responseCalls gs result s) := by
  refine Scene.notes_calls ?_
  induction gs with
  | nil => exact ⟨[], s.notes_nothing result⟩
  | cons g gs ih =>
    obtain ⟨added, h⟩ := ih
    exact ⟨_, h.bind (notes_onResponse g.1 g.2 _ _)⟩

theorem responseCalls_append (gs gs' : List (Nat × Stage σ)) (result : RunResult) (s : Scene σ) :
    let last := response (gs'.map Prod.snd) result s
    responseCalls (gs ++ gs') result s =
      responseCalls gs' result s ++ responseCalls gs last.1 last.2 := by
  intro last
  have hboth := (notes_response gs' result s).bind (notes_response gs last.1 last.2)
  refine Scene.Notes.calls_eq (x := response (gs.map Prod.snd) last.1 last.2) fun calls ↦ ?_
  rw [Stage.recordings, List.map_append]
  exact (response_append _ _ result _).trans (hboth calls)

/-- A result is shown to all stages in the reverse order. -/
theorem response?_responseCalls (gs : List (Nat × Stage σ)) (result : RunResult) (s : Scene σ) :
    (responseCalls gs result s).filterMap NotedCall.response? = (gs.map Prod.fst).reverse := by
  induction gs with
  | nil => rfl
  | cons g gs ih =>
    rw [← List.singleton_append, responseCalls_append, List.filterMap_append, ih,
      List.singleton_append, List.map_cons, List.reverse_cons]
    rfl

/-! ## Failures -/

/-- The calls of stages with their numbers for a failure. -/
def errorCalls (gs : List (Nat × Stage σ)) (failure : Failure) (s : Scene σ) : List NotedCall :=
  s.calls (error (Stage.recordings gs) failure)

variable {failure failure' : Failure} {stages' : List (Stage σ)}

theorem error_append_of_some (h : (error stages' failure s).1 = some failure')
    (stages : List (Stage σ)) :
    error (stages ++ stages') failure s = error stages failure' (error stages' failure s).2 := by
  have hlast : error stages' failure s = (some failure', (error stages' failure s).2) :=
    Prod.ext h rfl
  unfold error at hlast ⊢
  rw [List.foldr_append, hlast]

theorem error_append_of_none (h : (error stages' failure s).1 = none)
    (stages : List (Stage σ)) :
    error (stages ++ stages') failure s = error stages' failure s := by
  induction stages with
  | nil => rfl
  | cons g stages ih =>
    have hlast : error stages' failure s = (none, (error stages' failure s).2) := Prod.ext h rfl
    unfold error at ih hlast ⊢
    rw [List.cons_append, List.foldr_cons, ih, hlast]

theorem notes_onError (number : Nat) (g : Stage σ) (failure : Failure) (s : Scene σ) :
    s.Notes ((g.recording number).onError failure) (g.onError failure s)
      [.stage number (.onError failure) s.context] :=
  fun _ ↦ rfl

theorem notes_error_of_some {gs' : List (Nat × Stage σ)} {added' : List NotedCall}
    (hlast : s.Notes (error (Stage.recordings gs') failure)
      (error (gs'.map Prod.snd) failure s) added)
    (h : (error (gs'.map Prod.snd) failure s).1 = some failure')
    (hfirst : (error (gs'.map Prod.snd) failure s).2.Notes
      (error (Stage.recordings gs) failure')
      (error (gs.map Prod.snd) failure' (error (gs'.map Prod.snd) failure s).2) added') :
    s.Notes (error (Stage.recordings (gs ++ gs')) failure)
      (error ((gs ++ gs').map Prod.snd) failure s) (added ++ added') := by
  intro calls
  have hrecorded : (error (Stage.recordings gs') failure (s.recorded calls)).1 = some failure' := by
    rw [hlast calls]
    exact h
  rw [Stage.recordings, List.map_append, List.map_append, error_append_of_some h,
    ← List.append_assoc]
  refine (error_append_of_some hrecorded _).trans ?_
  rw [← Stage.recordings, hlast calls]
  exact hfirst (calls ++ added)

theorem notes_error_of_none {gs' : List (Nat × Stage σ)}
    (hlast : s.Notes (error (Stage.recordings gs') failure)
      (error (gs'.map Prod.snd) failure s) added)
    (h : (error (gs'.map Prod.snd) failure s).1 = none) (gs : List (Nat × Stage σ)) :
    s.Notes (error (Stage.recordings (gs ++ gs')) failure)
      (error ((gs ++ gs').map Prod.snd) failure s) added := by
  intro calls
  have hrecorded : (error (Stage.recordings gs') failure (s.recorded calls)).1 = none := by
    rw [hlast calls]
    exact h
  rw [Stage.recordings, List.map_append, List.map_append, error_append_of_none h]
  exact (error_append_of_none hrecorded _).trans (hlast calls)

theorem notes_error (gs : List (Nat × Stage σ)) (failure : Failure) (s : Scene σ) :
    s.Notes (error (Stage.recordings gs) failure) (error (gs.map Prod.snd) failure s)
      (errorCalls gs failure s) := by
  refine Scene.notes_calls ?_
  -- the first stage is a chain of its own, which a failure comes to from the others
  induction gs with
  | nil => exact ⟨[], s.notes_nothing (some failure)⟩
  | cons g gs ih =>
    obtain ⟨added, h⟩ := ih
    cases hlast : (error (gs.map Prod.snd) failure s).1 with
    | none => exact ⟨_, notes_error_of_none h hlast [g]⟩
    | some failure' =>
      let x := error (gs.map Prod.snd) failure s
      have hfirst : x.2.Notes (error (Stage.recordings [g]) failure')
          (error ([g].map Prod.snd) failure' x.2) [.stage g.1 (.onError failure') x.2.context] :=
        notes_onError g.1 g.2 failure' x.2
      exact ⟨_, notes_error_of_some h hlast hfirst⟩

/-! ## One stage -/

/-- The chain of one stage with a number does what the stage does, and calls nothing else. The run
may not go on if the stage halts it. -/
structure Single (number : Nat) (g : Stage σ) : Prop where
  request_eq : ∀ input s, request [g] input s =
    ((g.request input s).1,
      if g.halts input s then (g.request input s).2.halted else (g.request input s).2)
  requestCalls_eq : ∀ input s,
    requestCalls [(number, g)] input s = Stage.requestCalls number input s
  response_eq : ∀ result s, response [g] result s = g.onResponse result s
  responseCalls_eq : ∀ result s,
    responseCalls [(number, g)] result s = [.stage number (.onResponse result) s.context]
  error_eq : ∀ failure s, error [g] failure s = g.onError failure s
  errorCalls_eq : ∀ failure s,
    errorCalls [(number, g)] failure s = [.stage number (.onError failure) s.context]

theorem single (number : Nat) (g : Stage σ) : Single number g where
  request_eq input s := by
    cases h : g.halts input s with
    | true => exact request_of_halts h []
    | false => exact request_of_not_halts h []
  requestCalls_eq input s := by
    cases h : g.halts input s with
    | true => exact requestCalls_of_halts (g := (number, g)) h []
    | false => exact requestCalls_of_not_halts (g := (number, g)) h []
  response_eq _ _ := rfl
  responseCalls_eq _ _ := rfl
  error_eq _ _ := rfl
  errorCalls_eq _ _ := rfl

/-! ## All phases -/

/-- **Chains in sequence.** Let `first` and `last` be the two parts of a chain.

A request passes `first`. If no stage halts it there, what comes of it passes `last`. If one does,
what it makes of the request is all that becomes of it, no stage after it is called, and the run may
not go on. A result passes `last`, and what comes of it passes `first`. So does a failure, unless a
stage of `last` suppresses it; then no stage of `first` is called. A chain of one stage does what
the stage does.

So the stages of a chain are shown a result in the reverse of the order in which they are shown a
request that is not halted. -/
theorem phases_append (first last : List (Nat × Stage σ)) :
    (∀ input s,
      let x := request (first.map Prod.snd) input s
      if proceeds (first.map Prod.snd) input s then
        request ((first ++ last).map Prod.snd) input s = request (last.map Prod.snd) x.1 x.2 ∧
          requestCalls (first ++ last) input s =
            requestCalls first input s ++ requestCalls last x.1 x.2
      else
        request ((first ++ last).map Prod.snd) input s = x ∧
          requestCalls (first ++ last) input s = requestCalls first input s ∧
          x.2.context.proceed = false ∧
          ∃ before g after, first = before ++ g :: after ∧ HaltedBy before g first input s) ∧
      (∀ result s,
        let x := response (last.map Prod.snd) result s
        response ((first ++ last).map Prod.snd) result s = response (first.map Prod.snd) x.1 x.2 ∧
          responseCalls (first ++ last) result s =
            responseCalls last result s ++ responseCalls first x.1 x.2) ∧
      (∀ failure s,
        let x := error (last.map Prod.snd) failure s
        match x.1 with
        | some failure' =>
          error ((first ++ last).map Prod.snd) failure s =
              error (first.map Prod.snd) failure' x.2 ∧
            errorCalls (first ++ last) failure s =
              errorCalls last failure s ++ errorCalls first failure' x.2
        | none =>
          error ((first ++ last).map Prod.snd) failure s = x ∧
            errorCalls (first ++ last) failure s = errorCalls last failure s) ∧
      (∀ number (g : Stage σ), Single number g) ∧
      ∀ input s result s', proceeds ((first ++ last).map Prod.snd) input s = true →
        let requested := (requestCalls (first ++ last) input s).filterMap NotedCall.request?
        let responded := (responseCalls (first ++ last) result s').filterMap NotedCall.response?
        requested = (first ++ last).map Prod.fst ∧ responded = requested.reverse := by
  refine ⟨fun input s ↦ ?_, fun result s ↦ ?_, fun failure s ↦ ?_, single,
    fun input s result s' h ↦ ?_⟩
  · intro x
    rw [List.map_append]
    cases h : proceeds (first.map Prod.snd) input s with
    | true =>
      exact ⟨request_append_of_proceeds h _, requestCalls_append_of_proceeds h last⟩
    | false =>
      obtain ⟨before, g, after, hfirst, hhalted⟩ := exists_haltedBy h
      have hproceed : x.2.context.proceed = false := by
        rw [show x = _ from hhalted.result_eq]
        rfl
      exact ⟨request_append_of_not_proceeds h _, requestCalls_append_of_not_proceeds h last,
        hproceed, before, g, after, hfirst, hhalted⟩
  · rw [List.map_append]
    exact ⟨response_append _ _ result s, responseCalls_append first last result s⟩
  · intro x
    rw [List.map_append]
    cases h : x.1 with
    | some failure' =>
      exact ⟨error_append_of_some h _,
        (notes_error_of_some (notes_error last failure s) h
          (notes_error first failure' x.2)).calls_eq⟩
    | none =>
      exact ⟨error_append_of_none h _,
        (notes_error_of_none (notes_error last failure s) h first).calls_eq⟩
  · intro requested responded
    have hrequested : requested = (first ++ last).map Prod.fst := request?_requestCalls h
    rw [hrequested]
    exact ⟨rfl, response?_responseCalls _ result s'⟩

/-- A chain of which the second stage halts every run and the third one suppresses every failure,
the same chain without the second stage, and a chain of two stages that put a mark behind requests
and results and in the place of failures. -/
theorem phases_append_halted :
    let halting : Stage Unit :=
      { admitsRun := fun _ s ↦ (false, s.memory)
        onRequest := fun input s ↦ (input, s.note "halted" "here") }
    let suppressing : Stage Unit := { onError := fun _ s ↦ (none, s) }
    let marking (mark : String) : Stage Unit :=
      { onRequest := fun input s ↦ ({ input with runId := input.runId ++ mark }, s)
        onResponse := fun result s ↦ ({ result with runId := result.runId ++ mark }, s)
        onError := fun _ s ↦ (some (.network mark), s) }
    let first : List (Nat × Stage Unit) := [(1, .logging), (2, halting)]
    let last : List (Nat × Stage Unit) := [(3, suppressing), (4, .logging)]
    let input : RunInput := { threadId := "t", runId := "r" }
    let result : RunResult :=
      { threadId := "t", runId := "r", result := .null, newMessages := [], newState := .null }
    let failure : Failure := .state "closed"
    let s : Scene Unit := ⟨{ messages := [], state := .null, now := 0 }, ()⟩
    let call (number : Nat) (call : StageCall) : NotedCall := .stage number call s.context
    proceeds (first.map Prod.snd) input s = false ∧
      request ((first ++ last).map Prod.snd) input s =
        (input, (s.note "halted" "here").halted) ∧
      requestCalls (first ++ last) input s =
        [call 1 (.admitsRun input), call 1 (.onRequest input), call 2 (.admitsRun input),
          call 2 (.onRequest input)] ∧
      errorCalls (first ++ last) failure s =
        [call 4 (.onError failure), call 3 (.onError failure)] ∧
      proceeds (((1, .logging) :: last).map Prod.snd) input s = true ∧
      (responseCalls ((1, .logging) :: last) result s).filterMap NotedCall.response? =
        [4, 3, 1] ∧
      (request [marking "a", marking "b"] input s).1.runId = "rab" ∧
      (response [marking "a", marking "b"] result s).1.runId = "rba" ∧
      (error [marking "a", marking "b"] failure s).1 = some (.network "a") ∧
      errorCalls [(1, marking "a"), (2, marking "b")] failure s =
        [call 2 (.onError failure), call 1 (.onError (.network "b"))] := by
  intro halting suppressing marking first last input result failure s call
  obtain ⟨hrequest, -, herror, -⟩ := phases_append first last
  obtain ⟨hx, hcalls, -⟩ := hrequest input s
  obtain ⟨-, hsuppressed⟩ := herror failure s
  obtain ⟨-, -, -, -, horder⟩ := phases_append [(1, .logging)] last
  obtain ⟨hrequested, hresponded⟩ := horder input s result s rfl
  have hlogged := hresponded.trans (congrArg List.reverse hrequested)
  obtain ⟨hrequest, hresponse, herror, hsingle, -⟩ :=
    phases_append [(1, marking "a")] [(2, marking "b")]
  have ha := hsingle 1 (marking "a")
  have hb := hsingle 2 (marking "b")
  obtain ⟨hmarked, -⟩ := hrequest input s
  obtain ⟨hanswered, -⟩ := hresponse result s
  obtain ⟨hfailed, hfailures⟩ := herror failure s
  refine ⟨rfl, hx, hcalls, hsuppressed, rfl, hlogged, ?_, ?_, ?_, ?_⟩
  · refine (congrArg (·.1.runId) hmarked).trans ?_
    rw [List.map_singleton, List.map_singleton, hb.request_eq, ha.request_eq]
    rfl
  · refine (congrArg (·.1.runId) hanswered).trans ?_
    rw [List.map_singleton, List.map_singleton, ha.response_eq, hb.response_eq]
    rfl
  · refine (congrArg (·.1) hfailed).trans ?_
    rw [List.map_singleton, ha.error_eq]
  · refine hfailures.trans ?_
    rw [hb.errorCalls_eq, ha.errorCalls_eq]
    rfl

end Chain

end AgentSession
