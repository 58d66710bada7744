import AgentSession.Middleware.Retry
import AgentSession.Proofs.Middleware.Visits
import Mathlib.Data.List.Perm.Basic
/-!
# Chains of the stages that come with the library

What a chain does that is made of logging stages, deadlines, filters and retry budgets only, in any
number and order.

* Requests pass as they are, apart from notes.
* Events pass as they are unless a filter blocks their type (`Chain.event_builtin`).
* Results pass as they are, and the budgets forget what they have counted.
* Failures are charged to the budgets, the last one first, until one of them covers the failure
  (`Chain.error_builtin`).

So of a chain only the blocked types and the budgets matter. What the budgets let pass does not
depend on their order, as long as each of them counts for itself
(`Budget.uncovered_chargeAll_perm`).
-/

namespace AgentSession

variable {σ : Type}

/-! ## Budgets -/

/-- A retry budget, and the slot of the memory where it counts. -/
structure Budget (σ : Type) where
  retry : Retry
  counts : Slot σ Attempts

namespace Budget

variable {b b' : Budget σ} {bs bs' : List (Budget σ)}

/-- The memory when a budget has forgotten how often a run has failed. -/
def forget (runId : String) (b : Budget σ) (m : σ) : σ :=
  b.counts.put (Retry.succeed runId (b.counts.get m)) m

def forgetAll (runId : String) (bs : List (Budget σ)) (m : σ) : σ := bs.foldr (forget runId) m

/-- Charges the failure of a run to a budget, unless it is covered already: whether it is covered
then, and the memory. -/
def charge (failure : Failure) (runId : String) (b : Budget σ) : Bool × σ → Bool × σ
  | (true, m) => (true, m)
  | (false, m) =>
    if failure.isRetryable then
      let (due, counts) := b.retry.count runId (b.counts.get m)
      (due.isSome, b.counts.put counts m)
    else (false, m)

/-- Charges the failure of a run to budgets, the last one first, until one of them covers it. -/
def chargeAll (failure : Failure) (runId : String) (bs : List (Budget σ)) (m : σ) : Bool × σ :=
  bs.foldr (charge failure runId) (false, m)

/-! ### The order of budgets -/

/-- Neither of two budgets sees what the other one counts. -/
structure Independent (b b' : Budget σ) : Prop where
  get_put : ∀ counts m, b.counts.get (b'.counts.put counts m) = b.counts.get m
  get_put' : ∀ counts m, b'.counts.get (b.counts.put counts m) = b'.counts.get m
  put_put : ∀ counts counts' m,
    b.counts.put counts (b'.counts.put counts' m) = b'.counts.put counts' (b.counts.put counts m)

/-- Each of some budgets counts for itself. One that is there twice is the same budget. -/
def Separate (bs : List (Budget σ)) : Prop := ∀ b ∈ bs, ∀ b' ∈ bs, b = b' ∨ b.Independent b'

theorem Independent.symm (h : b.Independent b') : b'.Independent b :=
  ⟨h.get_put', h.get_put, fun counts counts' m ↦ (h.put_put counts' counts m).symm⟩

theorem separate_pair (h : b.Independent b') : Separate [b, b'] := by
  have hleft : ∀ c ∈ [b, b'], b = c ∨ b.Independent c :=
    List.forall_mem_cons.2 ⟨.inl rfl, List.forall_mem_singleton.2 (.inr h)⟩
  have hright : ∀ c ∈ [b, b'], b' = c ∨ b'.Independent c :=
    List.forall_mem_cons.2 ⟨.inr h.symm, List.forall_mem_singleton.2 (.inl rfl)⟩
  exact List.forall_mem_cons.2 ⟨hleft, List.forall_mem_singleton.2 hright⟩

theorem forget_comm (runId : String) (h : b = b' ∨ b.Independent b') (m : σ) :
    forget runId b' (forget runId b m) = forget runId b (forget runId b' m) := by
  obtain rfl | h := h
  · rfl
  · simp only [forget, h.get_put, h.get_put', h.put_put]

theorem forgetAll_perm (runId : String) (hperm : bs.Perm bs') (h : Separate bs) (m : σ) :
    forgetAll runId bs m = forgetAll runId bs' m :=
  hperm.foldr_eq' (fun b hb b' hb' m ↦ forget_comm runId (h b hb b' hb') m) m

/-- The memory after a charge, if the failure is not covered. -/
def uncovered : Bool × σ → Option σ
  | (true, _) => none
  | (false, m) => some m

/-- What a budget makes of the memory if it lets a failure pass. -/
def pass (failure : Failure) (runId : String) (b : Budget σ) (left : Option σ) : Option σ :=
  left.bind fun m ↦ uncovered (charge failure runId b (false, m))

theorem uncovered_charge (failure : Failure) (runId : String) (b : Budget σ) (x : Bool × σ) :
    pass failure runId b (uncovered x) = uncovered (charge failure runId b x) := by
  obtain ⟨_ | _, m⟩ := x
  · rfl
  · rfl

theorem uncovered_chargeAll (failure : Failure) (runId : String) (bs : List (Budget σ)) (m : σ) :
    uncovered (chargeAll failure runId bs m) = bs.foldr (pass failure runId) (some m) :=
  (List.foldr_hom uncovered (uncovered_charge failure runId)).symm

theorem pass_of_not_isRetryable {failure : Failure} (h : failure.isRetryable = false)
    (runId : String) (b : Budget σ) (left : Option σ) : pass failure runId b left = left := by
  cases left with
  | none => rfl
  | some m => simp only [pass, Option.bind_some, charge, h, Bool.false_eq_true, if_false, uncovered]

/-- A budget covers a failure that may be tried again, or counts it and lets it pass. -/
theorem pass_some {failure : Failure} (h : failure.isRetryable = true) (runId : String)
    (b : Budget σ) (m : σ) :
    pass failure runId b (some m) =
      if (b.retry.count runId (b.counts.get m)).1.isSome then none
      else some (b.counts.put (b.retry.count runId (b.counts.get m)).2 m) := by
  simp only [pass, Option.bind_some, charge, h, if_true]
  cases (b.retry.count runId (b.counts.get m)).1.isSome with
  | true => rfl
  | false => rfl

theorem pass_comm (failure : Failure) (runId : String) (h : b = b' ∨ b.Independent b')
    (left : Option σ) :
    pass failure runId b' (pass failure runId b left) =
      pass failure runId b (pass failure runId b' left) := by
  obtain rfl | h := h
  · rfl
  cases hretryable : failure.isRetryable with
  | false => simp only [pass_of_not_isRetryable hretryable]
  | true =>
    cases left with
    | none => rfl
    | some m =>
      rw [pass_some hretryable, pass_some hretryable]
      -- each covers the failure or not, whatever the other one has counted
      split <;> split
      · rfl
      · rename_i hb hb'
        rw [pass_some hretryable, h.get_put, if_pos hb]
        rfl
      · rename_i hb hb'
        rw [pass_some hretryable, h.get_put', if_pos hb']
        rfl
      · rename_i hb hb'
        rw [pass_some hretryable, pass_some hretryable, h.get_put, h.get_put', if_neg hb,
          if_neg hb', h.put_put]

/-- **The order of budgets does not matter.** Whether one of them covers a failure, and otherwise
what they have counted, is the same in every order. -/
theorem uncovered_chargeAll_perm (failure : Failure) (runId : String) (hperm : bs.Perm bs')
    (h : Separate bs) (m : σ) :
    uncovered (chargeAll failure runId bs m) = uncovered (chargeAll failure runId bs' m) := by
  rw [uncovered_chargeAll, uncovered_chargeAll]
  exact hperm.foldr_eq' (fun b hb b' hb' m ↦ pass_comm failure runId (h b hb b' hb') m) (some m)

end Budget

/-! ## Stages -/

/-- A stage that comes with the library. -/
inductive Builtin (σ : Type) where
  | logging
  /-- It notes how long a run may take, in milliseconds. -/
  | deadline (ms : Nat)
  | filter (f : EventFilter)
  | retry (b : Budget σ)

namespace Builtin

def stage : Builtin σ → Stage σ
  | logging => .logging
  | deadline ms => .deadline ms
  | filter f => f.stage
  | retry b => b.retry.stage b.counts

def isFilter : Builtin σ → Bool
  | filter _ => true
  | _ => false

def blocks : Builtin σ → EventType → Bool
  | filter f, t => f.blocks t
  | _, _ => false

def budget? : Builtin σ → Option (Budget σ)
  | retry b => some b
  | _ => none

/-- Charges the failure of a run to a stage, if it is a budget. -/
def charge (failure : Failure) (runId : String) (g : Builtin σ) (x : Bool × σ) : Bool × σ :=
  match g.budget? with
  | some b => b.charge failure runId x
  | none => x

/-- One of some stages blocks events of a type. -/
def anyBlocks (chain : List (Builtin σ)) (t : EventType) : Bool := chain.any (·.blocks t)

/-- The budgets among some stages. -/
def budgets (chain : List (Builtin σ)) : List (Budget σ) := chain.filterMap budget?

variable {g : Builtin σ} {chain chain' : List (Builtin σ)}

theorem anyBlocks_withoutFilters (chain : List (Builtin σ)) (t : EventType) :
    anyBlocks (chain.filter fun g ↦ !g.isFilter) t = false := by
  refine List.any_eq_false.2 fun g hg ↦ ?_
  cases g with
  | filter f => cases (List.mem_filter.1 hg).2
  | logging | deadline ms | retry b => exact Bool.false_ne_true

theorem budgets_withoutFilters (chain : List (Builtin σ)) :
    budgets (chain.filter fun g ↦ !g.isFilter) = budgets chain := by
  induction chain with
  | nil => rfl
  | cons g chain ih =>
    cases g with
    | filter f => exact ih
    | logging | deadline ms => exact ih
    | retry b => exact congrArg (b :: ·) ih

theorem chargeAll_budgets_cons (failure : Failure) (runId : String) (g : Builtin σ)
    (chain : List (Builtin σ)) (m : σ) :
    Budget.chargeAll failure runId (budgets (g :: chain)) m =
      g.charge failure runId (Budget.chargeAll failure runId (budgets chain) m) := by
  cases g with
  | logging | deadline ms | filter f | retry b => rfl

theorem anyBlocks_perm (h : chain.Perm chain') (t : EventType) :
    anyBlocks chain t = anyBlocks chain' t := h.any_eq

end Builtin

/-! ## Chains -/

/-- The scene with other notes. -/
def Scene.annotated (s : Scene σ) (metadata : Dict String) : Scene σ :=
  { s with context := { s.context with metadata } }

/-- The run that what stages are shown belongs to. -/
def Scene.runId (s : Scene σ) : String := (s.context.input.map RunInput.runId).getD ""

namespace Chain

/-- A request passes with nothing but new notes. -/
theorem request_builtin (chain : List (Builtin σ)) (input : RunInput) (s : Scene σ) :
    ∃ metadata, request (chain.map Builtin.stage) input s = (input, s.annotated metadata) := by
  induction chain generalizing s with
  | nil => exact ⟨s.context.metadata, rfl⟩
  | cons g chain ih =>
    cases g with
    | deadline ms => exact ih _
    | logging | filter f | retry b => exact ih s

/-- A stage refuses an event of a type that it blocks, and does nothing about others. -/
theorem passage_cons (g : Builtin σ) (stages : List (Stage σ)) (e : Event) (s : Scene σ) :
    passage (g.stage :: stages) e s =
      if g.blocks e.type then (none, s) else passage stages e s := by
  have hadmits : passage (Stage.logging :: stages) e s = passage stages e s :=
    passage_of_passesEvents Stage.passesEvents_logging stages e s
  cases g with
  | filter f =>
    cases hblocks : f.blocks e.type with
    | true =>
      simp only [passage, Builtin.stage, Builtin.blocks, EventFilter.stage, hblocks]
      rfl
    | false =>
      simp only [passage, Builtin.stage, Builtin.blocks, EventFilter.stage, hblocks]
      exact hadmits
  | logging | deadline ms | retry b => exact hadmits

theorem passage_builtin (chain : List (Builtin σ)) (e : Event) (s : Scene σ) :
    passage (chain.map Builtin.stage) e s =
      (if Builtin.anyBlocks chain e.type then none else some { current := some e }, s) := by
  induction chain with
  | nil => rfl
  | cons g chain ih =>
    have hany : Builtin.anyBlocks (g :: chain) e.type =
        (g.blocks e.type || Builtin.anyBlocks chain e.type) := List.any_cons
    rw [List.map_cons, passage_cons, ih, hany]
    cases g.blocks e.type with
    | true => rfl
    | false => rfl

/-- **Filters are exact.** An event passes as it is unless its type is blocked, and nothing else
becomes of it. -/
theorem event_builtin (chain : List (Builtin σ)) (e : Event) (s : Scene σ) :
    event (chain.map Builtin.stage) e s =
      (if Builtin.anyBlocks chain e.type then [] else [e], s) := by
  rw [event, passage_builtin]
  cases Builtin.anyBlocks chain e.type with
  | true => rfl
  | false => rfl

/-- A result passes as it is, and the budgets forget what they have counted. -/
theorem response_builtin (chain : List (Builtin σ)) (result : RunResult) (s : Scene σ) :
    response (chain.map Builtin.stage) result s =
      (result, s.recall (Budget.forgetAll result.runId (Builtin.budgets chain) s.memory)) := by
  induction chain with
  | nil => rfl
  | cons g chain ih =>
    unfold response at ih ⊢
    rw [List.map_cons, List.foldr_cons, ih]
    cases g with
    | logging | deadline ms | filter f | retry b => rfl

/-- What is left of a failure that was charged, and the scene with the notes that were made. -/
def charged (failure : Failure) (s : Scene σ) (metadata : Dict String) (x : Bool × σ) :
    Option Failure × Scene σ :=
  (if x.1 then none else some failure, (s.recall x.2).annotated metadata)

/-- A stage passes a failure as it is, unless it is a budget that covers it. -/
theorem onError_builtin (g : Builtin σ) (failure : Failure) (s : Scene σ) :
    ∃ metadata, g.stage.onError failure s =
      charged failure s metadata (g.charge failure s.runId (false, s.memory)) := by
  cases g with
  | logging | deadline ms | filter f => exact ⟨s.context.metadata, rfl⟩
  | retry b =>
    simp only [Builtin.stage, Retry.stage, Builtin.charge, Builtin.budget?, Budget.charge]
    cases failure.isRetryable with
    | false => exact ⟨s.context.metadata, rfl⟩
    | true =>
      unfold Scene.runId
      rcases b.retry.count ((s.context.input.map RunInput.runId).getD "") (b.counts.get s.memory)
        with ⟨_ | attempt, counts⟩
      · exact ⟨s.context.metadata, rfl⟩
      · exact ⟨_, rfl⟩

/-- A failure is charged to the budgets, and passes as it is unless one of them covers it. -/
theorem error_builtin (chain : List (Builtin σ)) (failure : Failure) (s : Scene σ) :
    ∃ metadata, error (chain.map Builtin.stage) failure s =
      charged failure s metadata
        (Budget.chargeAll failure s.runId (Builtin.budgets chain) s.memory) := by
  induction chain with
  | nil => exact ⟨s.context.metadata, rfl⟩
  | cons g chain ih =>
    obtain ⟨metadata, hchain⟩ := ih
    unfold error at hchain ⊢
    rw [List.map_cons, List.foldr_cons, hchain, Builtin.chargeAll_budgets_cons]
    rcases Budget.chargeAll failure s.runId (Builtin.budgets chain) s.memory with ⟨_ | _, memory⟩
    · exact onError_builtin g failure ((s.recall memory).annotated metadata)
    · -- the failure is covered, and `g` does not see it
      refine ⟨metadata, ?_⟩
      cases g with
      | logging | deadline ms | filter f | retry b => rfl

end Chain

end AgentSession
