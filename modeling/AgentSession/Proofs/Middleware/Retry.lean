import AgentSession.Proofs.Dict
import AgentSession.Proofs.Middleware.Builtin
/-!
# What a retry budget counts

A budget is shown how attempts at runs end, of any number of runs and in any order. It keeps a
number for every run, in a slot of a memory that may hold anything else. Beside it a log is kept of
how each ending was dealt with, and the number of a run is read off the log: it says how many of
its failures were suppressed since it last succeeded or last used its budget up
(`Retry.attempts_trail`).

## One number for both

A verdict does to the number that is stored what it does to the number that is read off the log
(`Verdict.after`), so both are followed by one function, and neither is ever more than the budget.
A verdict depends on the number of its own run only. So the runs do not see each other
(`Retry.verdicts_trail_filter`), and the failures of a run that never succeeds use up the budget in
turns of `maxRetries + 1` (`Retry.attempts_trail_eq_mod`).
-/

namespace AgentSession

variable {σ : Type}

/-! ## How attempts end -/

/-- The end of an attempt at a run, and the scene in which a stage is shown it. -/
inductive Ending (σ : Type) where
  | failed (failure : Failure) (scene : Scene σ)
  | succeeded (result : RunResult) (scene : Scene σ)

namespace Ending

/-- A failure belongs to the run of the scene; a result names its run. -/
def runId : Ending σ → String
  | failed _ scene => scene.runId
  | succeeded result _ => result.runId

/-- A failure of a run that may be tried again. -/
def isRetryableOf (runId : String) : Ending σ → Bool
  | failed failure scene => failure.isRetryable && scene.runId == runId
  | succeeded _ _ => false

def isSuccessOf (runId : String) : Ending σ → Bool
  | failed _ _ => false
  | succeeded result _ => result.runId == runId

end Ending

/-- How a budget deals with the end of an attempt. -/
inductive Verdict where
  | suppressed
  /-- A failure that may be tried again passes, and the budget is new. -/
  | exhausted
  /-- A failure that may not be tried again passes. -/
  | ignored
  | succeeded
deriving DecidableEq, Repr

namespace Verdict

def resets : Verdict → Bool
  | exhausted | succeeded => true
  | suppressed | ignored => false

/-- The number of suppressed failures after a verdict. -/
def after : Verdict → Nat → Nat
  | suppressed, n => n + 1
  | ignored, n => n
  | exhausted, _ | succeeded, _ => 0

end Verdict

/-- What a budget has counted, and how it has dealt with each run so far, newest first. -/
structure Trail where
  counts : Attempts := []
  log : List (String × Verdict) := []

namespace Trail

variable {runId other : String} {v : Verdict} {counts : Attempts} {log : List (String × Verdict)}

/-- How a budget has dealt with one run. -/
def verdicts (t : Trail) (runId : String) : List Verdict :=
  (t.log.filter fun entry ↦ entry.1 == runId).map Prod.snd

/-- How many failures of a run were suppressed since it last succeeded or a failure of it that may
be tried again last passed. -/
def suppressed (t : Trail) (runId : String) : Nat :=
  ((t.verdicts runId).takeWhile fun v ↦ !v.resets).count .suppressed

theorem verdicts_cons_self :
    verdicts ⟨counts, (runId, v) :: log⟩ runId = v :: verdicts ⟨counts, log⟩ runId := by
  simp only [verdicts, List.filter_cons, beq_self_eq_true, if_true, List.map_cons]

theorem verdicts_cons_of_ne (h : other ≠ runId) :
    verdicts ⟨counts, (other, v) :: log⟩ runId = verdicts ⟨counts, log⟩ runId := by
  rw [verdicts, List.filter_cons_of_neg (by simpa using h)]
  rfl

/-- A verdict on a run is a step of its own number. -/
theorem suppressed_cons_self :
    suppressed ⟨counts, (runId, v) :: log⟩ runId = v.after (suppressed ⟨counts, log⟩ runId) := by
  rw [suppressed, verdicts_cons_self, List.takeWhile_cons]
  rcases v with _ | _ | _ | _
  · exact List.count_cons_self
  · rfl
  · exact List.count_cons_of_ne (by decide)
  · rfl

theorem suppressed_cons_of_ne (h : other ≠ runId) :
    suppressed ⟨counts, (other, v) :: log⟩ runId = suppressed ⟨counts, log⟩ runId := by
  rw [suppressed, verdicts_cons_of_ne h]
  rfl

end Trail

namespace Retry

variable {r : Retry} {slot : Slot σ Attempts} {counts : Attempts} {runId : String}

/-! ## One ending -/

/-- What is left of a failure that a budget is shown when it has counted `counts`, and the scene
then. The memory of the scene may hold anything besides the counts. -/
def answer (r : Retry) (slot : Slot σ Attempts) (counts : Attempts) :
    Ending σ → Option Failure × Scene σ
  | .failed failure s => (r.stage slot).onError failure (s.recall (slot.put counts s.memory))
  | .succeeded result s =>
    (none, ((r.stage slot).onResponse result (s.recall (slot.put counts s.memory))).2)

def verdict (r : Retry) (slot : Slot σ Attempts) (counts : Attempts) : Ending σ → Verdict
  | .failed failure s =>
    match (r.answer slot counts (.failed failure s)).1 with
    | none => .suppressed
    | some _ => if failure.isRetryable then .exhausted else .ignored
  | .succeeded _ _ => .succeeded

/-- A slot gives back what was put into it. -/
def Keeps (slot : Slot σ Attempts) : Prop := ∀ counts m, slot.get (slot.put counts m) = counts

theorem answer_of_not_isRetryable {failure : Failure} (h : ¬failure.isRetryable) (s : Scene σ) :
    r.answer slot counts (.failed failure s) =
      (some failure, s.recall (slot.put counts s.memory)) := by
  rw [answer, stage]
  exact if_neg h

theorem answer_of_lt (hslot : Keeps slot) {failure : Failure} (h : failure.isRetryable)
    {s : Scene σ} (hlt : attempts counts s.runId < r.maxRetries) :
    let n := attempts counts s.runId
    let memory := slot.put (counts.insert s.runId (n + 1)) (slot.put counts s.memory)
    r.answer slot counts (.failed failure s) =
      (none, ((s.recall memory).note "retry_attempt" (toString (n + 1))).note "retry_delay_ms"
        (toString r.delayMs)) := by
  intro n memory
  have hcount : r.count s.runId counts = (some (n + 1), counts.insert s.runId (n + 1)) :=
    if_neg (Nat.not_le.2 hlt)
  unfold Scene.runId at hcount
  simp only [answer, stage, h, if_true, Scene.recall, hslot counts s.memory, hcount]
  rfl

theorem answer_of_le (hslot : Keeps slot) {failure : Failure} (h : failure.isRetryable)
    {s : Scene σ} (hle : r.maxRetries ≤ attempts counts s.runId) :
    r.answer slot counts (.failed failure s) =
      (some failure,
        s.recall (slot.put (counts.erase s.runId) (slot.put counts s.memory))) := by
  have hcount : r.count s.runId counts = (none, counts.erase s.runId) := if_pos hle
  unfold Scene.runId at hcount
  simp only [answer, stage, h, if_true, Scene.recall, hslot counts s.memory, hcount]
  rfl

/-- A failure that may be tried again is suppressed as long as the number of its run is below the
budget. Nothing else about the counts matters. -/
theorem verdict_failed (hslot : Keeps slot) (failure : Failure) (s : Scene σ) :
    r.verdict slot counts (.failed failure s) =
      if failure.isRetryable then
        if attempts counts s.runId < r.maxRetries then .suppressed else .exhausted
      else .ignored := by
  rw [verdict]
  by_cases h : failure.isRetryable
  · rw [if_pos h, if_pos h]
    by_cases hlt : attempts counts s.runId < r.maxRetries
    · rw [if_pos hlt, answer_of_lt hslot h hlt]
    · rw [if_neg hlt, answer_of_le hslot h (Nat.not_lt.1 hlt)]
  · rw [if_neg h, if_neg h, answer_of_not_isRetryable h]

theorem attempts_insert (counts : Attempts) (runId other : String) (n : Nat) :
    attempts (counts.insert runId n) other =
      if runId = other then n else attempts counts other := by
  rw [attempts, Dict.get?_insert]
  split <;> rfl

theorem attempts_erase (hsorted : counts.Sorted) (runId other : String) :
    attempts (counts.erase runId) other = if runId = other then 0 else attempts counts other := by
  rw [attempts, hsorted.get?_erase]
  split <;> rfl

/-- What a budget has counted after an ending. -/
def countsAfter (r : Retry) (slot : Slot σ Attempts) (counts : Attempts) (e : Ending σ) :
    Attempts :=
  slot.get (r.answer slot counts e).2.memory

theorem countsAfter_cases (hslot : Keeps slot) (e : Ending σ) :
    r.countsAfter slot counts e =
      match r.verdict slot counts e with
      | .suppressed => counts.insert e.runId (attempts counts e.runId + 1)
      | .ignored => counts
      | .exhausted | .succeeded => counts.erase e.runId := by
  rw [countsAfter]
  rcases e with ⟨failure, s⟩ | ⟨result, s⟩
  · rw [verdict_failed hslot, Ending.runId]
    by_cases h : failure.isRetryable
    · rw [if_pos h]
      by_cases hlt : attempts counts s.runId < r.maxRetries
      · rw [if_pos hlt, answer_of_lt hslot h hlt]
        exact hslot _ _
      · rw [if_neg hlt, answer_of_le hslot h (Nat.not_lt.1 hlt)]
        exact hslot _ _
    · rw [if_neg h, answer_of_not_isRetryable h]
      exact hslot _ _
  · have hforgotten : r.answer slot counts (.succeeded result s) =
        (none, s.recall (slot.put
          (succeed result.runId (slot.get (slot.put counts s.memory)))
          (slot.put counts s.memory))) := rfl
    rw [hforgotten, hslot counts s.memory]
    exact hslot _ _

/-- The number of a run takes the step of the verdict, and the numbers of other runs stay. -/
theorem attempts_countsAfter (hslot : Keeps slot) (hsorted : counts.Sorted) (e : Ending σ)
    (runId : String) :
    attempts (r.countsAfter slot counts e) runId =
      if e.runId = runId then (r.verdict slot counts e).after (attempts counts runId)
      else attempts counts runId := by
  rw [countsAfter_cases hslot]
  by_cases hrun : e.runId = runId
  · subst hrun
    rw [if_pos rfl]
    rcases r.verdict slot counts e with _ | _ | _ | _
    · rw [attempts_insert, if_pos rfl]
      rfl
    · rw [attempts_erase hsorted, if_pos rfl]
      rfl
    · rfl
    · rw [attempts_erase hsorted, if_pos rfl]
      rfl
  · rw [if_neg hrun]
    rcases r.verdict slot counts e with _ | _ | _ | _
    · rw [attempts_insert, if_neg hrun]
    · rw [attempts_erase hsorted, if_neg hrun]
    · rfl
    · rw [attempts_erase hsorted, if_neg hrun]

theorem sorted_countsAfter (hslot : Keeps slot) (hsorted : counts.Sorted) (e : Ending σ) :
    (r.countsAfter slot counts e).Sorted := by
  rw [countsAfter_cases hslot]
  rcases r.verdict slot counts e with _ | _ | _ | _
  · exact hsorted.insert _ _
  · exact hsorted.erase _
  · exact hsorted
  · exact hsorted.erase _

/-- The verdict on an ending depends on the number of its own run only. -/
theorem verdict_congr (hslot : Keeps slot) {counts' : Attempts} {e : Ending σ}
    (h : attempts counts e.runId = attempts counts' e.runId) :
    r.verdict slot counts e = r.verdict slot counts' e := by
  rcases e with ⟨failure, s⟩ | ⟨result, s⟩
  · rw [Ending.runId] at h
    rw [verdict_failed hslot, verdict_failed hslot, h]
  · rfl

theorem after_le (hslot : Keeps slot) {e : Ending σ}
    (h : attempts counts e.runId ≤ r.maxRetries) :
    (r.verdict slot counts e).after (attempts counts e.runId) ≤ r.maxRetries := by
  rcases e with ⟨failure, s⟩ | ⟨result, s⟩
  · rw [verdict_failed hslot]
    rw [Ending.runId] at h ⊢
    split_ifs with _ hlt
    · exact hlt
    · exact Nat.zero_le _
    · exact h
  · exact Nat.zero_le _

/-! ## Many endings -/

/-- The trail of a budget that has been shown one more ending. -/
def extend (r : Retry) (slot : Slot σ Attempts) (t : Trail) (e : Ending σ) : Trail :=
  ⟨r.countsAfter slot t.counts e, (e.runId, r.verdict slot t.counts e) :: t.log⟩

/-- The trail of a budget that had counted nothing when it was shown some endings, in order. -/
def trail (r : Retry) (slot : Slot σ Attempts) (es : List (Ending σ)) : Trail :=
  es.foldl (r.extend slot) {}

theorem trail_concat (r : Retry) (slot : Slot σ Attempts) (es : List (Ending σ)) (e : Ending σ) :
    r.trail slot (es ++ [e]) = r.extend slot (r.trail slot es) e := by
  rw [trail, List.foldl_append]
  rfl

theorem sorted_trail (hslot : Keeps slot) (es : List (Ending σ)) :
    (r.trail slot es).counts.Sorted := by
  induction es using List.reverseRecOn with
  | nil => exact List.Pairwise.nil
  | append_singleton es e ih =>
    rw [trail_concat]
    exact sorted_countsAfter hslot ih e

theorem attempts_trail_concat (hslot : Keeps slot) (es : List (Ending σ)) (e : Ending σ)
    (runId : String) :
    let t := r.trail slot es
    attempts (r.trail slot (es ++ [e])).counts runId =
      if e.runId = runId then (r.verdict slot t.counts e).after (attempts t.counts runId)
      else attempts t.counts runId := by
  intro t
  rw [trail_concat]
  exact attempts_countsAfter hslot (sorted_trail hslot es) e runId

/-- **The number that is stored is the number that the log shows.** -/
theorem attempts_trail (hslot : Keeps slot) (es : List (Ending σ)) (runId : String) :
    attempts (r.trail slot es).counts runId = (r.trail slot es).suppressed runId := by
  induction es using List.reverseRecOn with
  | nil => rfl
  | append_singleton es e ih =>
    rw [attempts_trail_concat hslot, trail_concat, extend]
    by_cases hrun : e.runId = runId
    · subst hrun
      rw [if_pos rfl, Trail.suppressed_cons_self, ih]
      rfl
    · rw [if_neg hrun, Trail.suppressed_cons_of_ne hrun, ih]
      rfl

theorem attempts_trail_le (hslot : Keeps slot) (es : List (Ending σ)) (runId : String) :
    attempts (r.trail slot es).counts runId ≤ r.maxRetries := by
  induction es using List.reverseRecOn with
  | nil => exact Nat.zero_le _
  | append_singleton es e ih =>
    rw [attempts_trail_concat hslot]
    by_cases hrun : e.runId = runId
    · subst hrun
      rw [if_pos rfl]
      exact after_le hslot ih
    · rw [if_neg hrun]
      exact ih

/-- What is stored for a run, and how its endings were dealt with, is the same if the endings of the
other runs are left out. -/
theorem verdicts_trail_filter (hslot : Keeps slot) (es : List (Ending σ)) (runId : String) :
    let own := es.filter fun e ↦ e.runId == runId
    attempts (r.trail slot es).counts runId = attempts (r.trail slot own).counts runId ∧
      (r.trail slot es).verdicts runId = (r.trail slot own).verdicts runId := by
  intro own
  induction es using List.reverseRecOn with
  | nil => exact ⟨rfl, rfl⟩
  | append_singleton es e ih =>
    obtain ⟨hattempts, hverdicts⟩ := ih
    by_cases hrun : e.runId = runId
    · have hown : own = (es.filter fun e ↦ e.runId == runId) ++ [e] := by
        rw [show own = _ from List.filter_append ..]
        exact congrArg _ (List.filter_cons_of_pos (by simpa using hrun))
      rw [hown, attempts_trail_concat hslot, attempts_trail_concat hslot, if_pos hrun, if_pos hrun,
        trail_concat, trail_concat, extend, extend]
      subst hrun
      have hverdict := verdict_congr (r := r) hslot hattempts
      rw [Trail.verdicts_cons_self, Trail.verdicts_cons_self, hverdict, hattempts]
      exact ⟨rfl, congrArg _ hverdicts⟩
    · have hown : own = es.filter fun e ↦ e.runId == runId := by
        rw [show own = _ from List.filter_append ..]
        refine (congrArg _ (List.filter_cons_of_neg (by simpa using hrun))).trans ?_
        exact List.append_nil _
      rw [hown, attempts_trail_concat hslot, if_neg hrun, trail_concat, extend,
        Trail.verdicts_cons_of_ne hrun]
      exact ⟨hattempts, hverdicts⟩

/-- A failure of a run that has failed `k` times, of which the number tells the remainder. -/
theorem after_verdict_mod (hslot : Keeps slot) {failure : Failure} {s : Scene σ} {k : ℕ}
    (h : attempts counts s.runId = k % (r.maxRetries + 1)) :
    (r.verdict slot counts (.failed failure s)).after (attempts counts s.runId) =
      (k + if failure.isRetryable then 1 else 0) % (r.maxRetries + 1) := by
  have hbound : k % (r.maxRetries + 1) < r.maxRetries + 1 := Nat.mod_lt k r.maxRetries.succ_pos
  rw [verdict_failed hslot, h]
  by_cases hretryable : failure.isRetryable
  · rw [if_pos hretryable, if_pos hretryable, ← Nat.mod_add_mod]
    by_cases hlt : k % (r.maxRetries + 1) < r.maxRetries
    · rw [if_pos hlt, Nat.mod_eq_of_lt (Nat.succ_lt_succ hlt)]
      rfl
    · have hlast : k % (r.maxRetries + 1) = r.maxRetries := by omega
      rw [if_neg hlt, hlast, Nat.mod_self]
      rfl
  · rw [if_neg hretryable, if_neg hretryable]
    rfl

/-- As long as a run does not succeed, its number tells how many of its failures that may be tried
again there were, up to multiples of `maxRetries + 1`. -/
theorem attempts_trail_eq_mod (hslot : Keeps slot) {es : List (Ending σ)} {runId : String}
    (h : ∀ e ∈ es, e.isSuccessOf runId = false) :
    attempts (r.trail slot es).counts runId =
      es.countP (Ending.isRetryableOf runId) % (r.maxRetries + 1) := by
  induction es using List.reverseRecOn with
  | nil => rfl
  | append_singleton es e ih =>
    obtain ⟨hes, he⟩ := List.forall_mem_append.1 h
    rw [attempts_trail_concat hslot, List.countP_append, List.countP_singleton]
    rcases e with ⟨failure, s⟩ | ⟨result, s⟩
    · by_cases hrun : s.runId = runId
      · subst hrun
        rw [Ending.runId, if_pos rfl, after_verdict_mod hslot (ih hes), Ending.isRetryableOf,
          beq_self_eq_true, Bool.and_true]
      · have hother : Ending.isRetryableOf runId (.failed failure s) = false := by
          rw [Ending.isRetryableOf, beq_eq_false_iff_ne.2 hrun, Bool.and_false]
        rw [Ending.runId, if_neg hrun, hother]
        exact ih hes
    · have hrun : result.runId ≠ runId :=
        beq_eq_false_iff_ne.1 (he _ List.mem_cons_self)
      rw [Ending.runId, if_neg hrun]
      exact ih hes

/-! ## The budget of every run -/

/-- How a budget deals with a failure, `n` failures of its run being suppressed so far. -/
structure DealsWith (r : Retry) (n : ℕ) (failure : Failure) (s : Scene σ)
    (x : Option Failure × Scene σ) : Prop where
  suppressed_iff : x.1 = none ↔ failure.isRetryable ∧ n < r.maxRetries
  attempt_of_suppressed :
    x.1 = none → x.2.context.metadata.get? "retry_attempt" = some (toString (n + 1))
  eq_of_passes : x.1 ≠ none → x.1 = some failure ∧ x.2.context = s.context

theorem dealsWith_answer (hslot : Keeps slot) (failure : Failure) (s : Scene σ) :
    r.DealsWith (attempts counts s.runId) failure s (r.answer slot counts (.failed failure s)) := by
  by_cases h : failure.isRetryable
  · by_cases hlt : attempts counts s.runId < r.maxRetries
    · rw [answer_of_lt hslot h hlt]
      refine ⟨⟨fun _ ↦ ⟨h, hlt⟩, fun _ ↦ rfl⟩, fun _ ↦ ?_, fun hpass ↦ absurd rfl hpass⟩
      refine (Dict.get?_insert_of_ne _ (by decide) _).trans ?_
      exact Dict.get?_insert_self _ _ _
    · rw [answer_of_le hslot h (Nat.not_lt.1 hlt)]
      exact ⟨⟨nofun, fun hcovered ↦ absurd hcovered.2 hlt⟩, nofun, fun _ ↦ ⟨rfl, rfl⟩⟩
  · rw [answer_of_not_isRetryable h]
    exact ⟨⟨nofun, fun hcovered ↦ absurd hcovered.1 h⟩, nofun, fun _ ↦ ⟨rfl, rfl⟩⟩

theorem counts_trail_of_not_isRetryable (hslot : Keeps slot) {failure : Failure}
    (h : ¬failure.isRetryable) (es : List (Ending σ)) (s : Scene σ) :
    (r.trail slot (es ++ [.failed failure s])).counts = (r.trail slot es).counts := by
  rw [trail_concat]
  refine (countsAfter_cases hslot _).trans ?_
  rw [verdict_failed hslot, if_neg h]

/-- The failures of a run that never succeeds use the budget up in turns. -/
theorem passes_iff_dvd (hslot : Keeps slot) {failure : Failure} (h : failure.isRetryable)
    {es : List (Ending σ)} {s : Scene σ} (hnone : ∀ e ∈ es, e.isSuccessOf s.runId = false) :
    (r.answer slot (r.trail slot es).counts (.failed failure s)).1 = some failure ↔
      r.maxRetries + 1 ∣ es.countP (Ending.isRetryableOf s.runId) + 1 := by
  have hdeals : r.DealsWith (attempts (r.trail slot es).counts s.runId) failure s
      (r.answer slot (r.trail slot es).counts (.failed failure s)) :=
    dealsWith_answer hslot failure s
  have hfull : (r.answer slot (r.trail slot es).counts (.failed failure s)).1 = some failure ↔
      attempts (r.trail slot es).counts s.runId = r.maxRetries := by
    constructor
    · intro hpasses
      have hnot : ¬attempts (r.trail slot es).counts s.runId < r.maxRetries := by
        intro hlt
        rw [hdeals.suppressed_iff.2 ⟨h, hlt⟩] at hpasses
        cases hpasses
      exact Nat.le_antisymm (attempts_trail_le hslot es s.runId) (Nat.not_lt.1 hnot)
    · intro hfull
      refine (hdeals.eq_of_passes fun hcovered ↦ ?_).1
      exact absurd (hdeals.suppressed_iff.1 hcovered).2 (Nat.not_lt.2 hfull.ge)
  rw [hfull, attempts_trail_eq_mod hslot hnone, Nat.dvd_iff_mod_eq_zero,
    Nat.succ_mod_succ_eq_zero_iff]

/-- **Retry budgets.** Let a budget that had counted nothing be shown the ends `es` of attempts at
any number of runs.

The number that is stored for a run is the number of its failures that were suppressed since it
last succeeded or a failure of it that may be tried again last passed, and it is at most the budget.
A failure is suppressed if it may be tried again and this number is below the budget; otherwise it
passes as it is. After it the number is one more, or zero if the budget was used up, or the same if
the failure may not be tried again; then all that is stored is the same. A result passes as it is,
and the number is zero after it. The numbers of other runs stay, and leaving out the endings of
other runs changes nothing for a run. So if a run never succeeds, the failures that pass are those
of which the position is a multiple of one more than the budget. -/
theorem budget_trail (r : Retry) {slot : Slot σ Attempts} (hslot : Keeps slot)
    (es : List (Ending σ)) :
    let t := r.trail slot es
    (∀ runId, attempts t.counts runId = t.suppressed runId) ∧
      (∀ runId n, t.counts.get? runId = some n → n ≤ r.maxRetries) ∧
      (∀ failure s,
        let n := t.suppressed s.runId
        let t' := r.trail slot (es ++ [.failed failure s])
        r.DealsWith n failure s (r.answer slot t.counts (.failed failure s)) ∧
          attempts t'.counts s.runId =
            (if failure.isRetryable then if n < r.maxRetries then n + 1 else 0 else n) ∧
          (∀ runId ≠ s.runId, attempts t'.counts runId = attempts t.counts runId) ∧
          (¬failure.isRetryable → t'.counts = t.counts)) ∧
      (∀ result s,
        let t' := r.trail slot (es ++ [.succeeded result s])
        ((r.stage slot).onResponse result s).1 = result ∧
          ((r.stage slot).onResponse result s).2.context = s.context ∧
          attempts t'.counts result.runId = 0 ∧
          ∀ runId ≠ result.runId, attempts t'.counts runId = attempts t.counts runId) ∧
      (∀ runId,
        let own := r.trail slot (es.filter fun e ↦ e.runId == runId)
        attempts t.counts runId = attempts own.counts runId ∧
          t.verdicts runId = own.verdicts runId) ∧
      ∀ failure s, failure.isRetryable → (∀ e ∈ es, e.isSuccessOf s.runId = false) →
        let position := es.countP (Ending.isRetryableOf s.runId) + 1
        (r.answer slot t.counts (.failed failure s)).1 = some failure ↔
          r.maxRetries + 1 ∣ position := by
  intro t
  have hnumber := attempts_trail (r := r) hslot es
  have hdeals : ∀ failure s, r.DealsWith (t.suppressed s.runId) failure s
      (r.answer slot t.counts (.failed failure s)) := by
    intro failure s
    rw [← hnumber s.runId]
    exact dealsWith_answer hslot failure s
  refine ⟨hnumber, ?_, fun failure s ↦ ?_, fun result s ↦ ?_, ?_, ?_⟩
  · intro runId n hn
    have hle := attempts_trail_le (r := r) hslot es runId
    rwa [attempts, hn] at hle
  · intro n t'
    refine ⟨hdeals failure s, ?_, ?_, ?_⟩
    · have hstep := attempts_trail_concat (r := r) hslot es (.failed failure s) s.runId
      rw [show attempts t'.counts s.runId = _ from hstep, Ending.runId, if_pos rfl,
        verdict_failed hslot, hnumber s.runId]
      split_ifs <;> rfl
    · intro runId hne
      exact (attempts_trail_concat hslot es _ runId).trans (if_neg hne.symm)
    · intro h
      exact counts_trail_of_not_isRetryable hslot h es s
  · intro t'
    refine ⟨rfl, rfl, ?_, ?_⟩
    · exact (attempts_trail_concat hslot es _ result.runId).trans (if_pos rfl)
    · intro runId hne
      exact (attempts_trail_concat hslot es _ runId).trans (if_neg hne.symm)
  · intro runId
    exact verdicts_trail_filter hslot es runId
  · intro failure s h hnone
    exact passes_iff_dvd hslot h hnone

/-- A budget of one, and four failures of one run with a failure of another between them. -/
theorem budget_trail_turns :
    let r : Retry := { maxRetries := 1, delayMs := 10 }
    let slot : Slot Attempts Attempts := .whole
    let failure : Failure := .network "reset"
    let scene (runId : String) : Scene Attempts :=
      ⟨{ input := some { threadId := "t", runId }, messages := [], state := .null, now := 0 }, []⟩
    let es : List (Ending Attempts) :=
      ["a", "b", "a", "a"].map fun runId ↦ .failed failure (scene runId)
    let t := r.trail slot es
    Keeps slot ∧ failure.isRetryable ∧ (∀ e ∈ es, e.isSuccessOf "a" = false) ∧
      t.verdicts "a" = [.suppressed, .exhausted, .suppressed] ∧ attempts t.counts "a" = 1 ∧
      (r.answer slot t.counts (.failed failure (scene "a"))).1 = some failure ∧
      (r.answer slot (r.trail slot []).counts (.failed failure (scene "a"))).1 = none := by
  intro r slot failure scene es t
  have hslot : Keeps slot := fun _ _ ↦ rfl
  have hes : ∀ e ∈ es, e.isSuccessOf "a" = false := by decide
  obtain ⟨hnumber, -, -, -, -, hturns⟩ := budget_trail r hslot es
  obtain ⟨-, -, hdeals, -⟩ := budget_trail r hslot []
  refine ⟨hslot, rfl, hes, by decide, (hnumber "a").trans (by decide), ?_, ?_⟩
  · exact (hturns failure (scene "a") rfl hes).2 (by decide)
  · exact (hdeals failure (scene "a")).1.suppressed_iff.2 ⟨rfl, Nat.one_pos⟩

end Retry

end AgentSession
