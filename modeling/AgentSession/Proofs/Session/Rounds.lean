import AgentSession.Session.Subscriber
/-!
# Rounds of questions

In a round every subscriber is asked the same question, in order, up to the first whose answer ends
the round, because it is a failure or a request to stop. `Subscriber.round` tells what comes of a
round from the answers alone, with no mutation merged into another: for each thing that a mutation
can set, the last answer that sets it counts. This is what `Subscriber.askAll` does
(`Subscriber.askAll_eq_round`).

Since merging mutations is associative, it does not matter how subscribers are grouped: a group of
them can be taken for a single subscriber (`Subscriber.askAll_groups`).
-/

namespace AgentSession

variable {σ : Type}

namespace Mutation

/-- What several mutations ask for: the last messages and the last state document that one of them
sets, and to stop if one of them does. -/
def overall (ms : List Mutation) : Mutation where
  messages := (ms.filterMap Mutation.messages).getLast?
  state := (ms.filterMap Mutation.state).getLast?
  stop := ms.any Mutation.stop

@[simp] theorem overall_nil : overall [] = nothing := rfl

/-- The last of the values that a list sets is set by the first mutation or by a later one. -/
theorem getLast?_filterMap_cons {α : Type} (f : Mutation → Option α) (m : Mutation)
    (ms : List Mutation) :
    ((m :: ms).filterMap f).getLast? = ((ms.filterMap f).getLast? <|> f m) := by
  cases h : f m with
  | none => simp [h]
  | some a => cases hlast : (ms.filterMap f).getLast? <;> simp [h, hlast, List.getLast?_cons]

@[simp] theorem overall_cons (m : Mutation) (ms : List Mutation) :
    overall (m :: ms) = m.merge (overall ms) := by
  rw [overall, merge, getLast?_filterMap_cons, getLast?_filterMap_cons]
  rfl

end Mutation

/-- What comes of a round. -/
structure Round (σ : Type) where
  /-- How many subscribers are asked. -/
  asked : Nat
  /-- Whether one of them fails or asks to stop. -/
  ended : Bool
  outcome : Except Failure Mutation
  memory : σ

namespace Subscriber

/-! ## Answers -/

/-- An answer that ends a round: a failure, or a request to stop. -/
def ends (answer : Answer σ) : Bool :=
  match answer.1 with
  | .error _ => true
  | .ok m => m.stop

/-- The answers of subscribers of which each is asked after those before it, whatever these
answer. -/
def answers (ask : Subscriber σ → σ → Answer σ) : List (Subscriber σ) → σ → List (Answer σ)
  | [], _ => []
  | b :: bs, memory => ask b memory :: answers ask bs (ask b memory).2

/-- The answers up to and including the first that ends the round. -/
def heard (as : List (Answer σ)) : List (Answer σ) := as.take (as.findIdx ends + 1)

theorem heard_cons_of_ends {a : Answer σ} (h : ends a = true) (as : List (Answer σ)) :
    heard (a :: as) = [a] := by
  simp [heard, List.findIdx_cons, h]

theorem heard_cons_of_not_ends {a : Answer σ} (h : ends a = false) (as : List (Answer σ)) :
    heard (a :: as) = a :: heard as := by
  simp [heard, List.findIdx_cons, h]

/-! ## Rounds -/

/-- What comes of asking subscribers: a failure if there is one among the answers that are heard,
and otherwise what they ask for together. -/
def round (ask : Subscriber σ → σ → Answer σ) (bs : List (Subscriber σ)) (memory : σ) : Round σ :=
  let answers := answers ask bs memory
  { asked := (heard answers).length
    ended := answers.any ends
    outcome := ((heard answers).mapM Prod.fst).map Mutation.overall
    memory := ((heard answers).getLast?.map Prod.snd).getD memory }

variable {ask : Subscriber σ → σ → Answer σ} {b : Subscriber σ} {memory : σ}

theorem round_cons_of_error {failure : Failure} (h : (ask b memory).1 = .error failure)
    (bs : List (Subscriber σ)) :
    round ask (b :: bs) memory = ⟨1, true, .error failure, (ask b memory).2⟩ := by
  have hends : ends (ask b memory) = true := by
    rw [ends, h]
  simp only [round, answers, heard_cons_of_ends hends, List.any_cons, hends, List.mapM_cons, h]
  rfl

theorem round_cons_of_stop {m : Mutation} (h : (ask b memory).1 = .ok m) (hstop : m.stop = true)
    (bs : List (Subscriber σ)) :
    round ask (b :: bs) memory = ⟨1, true, .ok m, (ask b memory).2⟩ := by
  have hends : ends (ask b memory) = true := by
    rw [ends, h]
    exact hstop
  have hm : Mutation.overall [m] = m := by
    rw [Mutation.overall_cons, Mutation.overall_nil, Mutation.merge_nothing]
  simp only [round, answers, heard_cons_of_ends hends, List.any_cons, hends, List.mapM_cons, h]
  exact congrArg (fun m ↦ (⟨1, true, .ok m, (ask b memory).2⟩ : Round σ)) hm

/-- An answer that does not end the round is merged with what comes of the others. -/
theorem round_cons_of_ok {m : Mutation} (h : (ask b memory).1 = .ok m) (hstop : m.stop = false)
    (bs : List (Subscriber σ)) :
    let rest := round ask bs (ask b memory).2
    round ask (b :: bs) memory =
      ⟨rest.asked + 1, rest.ended, rest.outcome.map m.merge, rest.memory⟩ := by
  have hends : ends (ask b memory) = false := by
    rw [ends, h]
    exact hstop
  have houtcome (as : List (Answer σ)) :
      ((ask b memory :: as).mapM Prod.fst).map Mutation.overall =
        ((as.mapM Prod.fst).map Mutation.overall).map m.merge := by
    rw [List.mapM_cons, h]
    cases as.mapM Prod.fst with
    | error failure => rfl
    | ok ms => exact congrArg Except.ok (Mutation.overall_cons m ms)
  have hmemory (as : List (Answer σ)) :
      ((ask b memory :: as).getLast?.map Prod.snd).getD memory =
        (as.getLast?.map Prod.snd).getD (ask b memory).2 := by
    rw [List.getLast?_cons]
    cases as.getLast? <;> rfl
  simp only [round, answers, heard_cons_of_not_ends hends, List.any_cons, hends, houtcome, hmemory]
  rfl

/-- A round was ended if its outcome would end one. -/
theorem ended_round (ask : Subscriber σ → σ → Answer σ) (bs : List (Subscriber σ)) (memory : σ) :
    (round ask bs memory).ended =
      ends ((round ask bs memory).outcome, (round ask bs memory).memory) := by
  induction bs generalizing memory with
  | nil => rfl
  | cons b bs ih =>
    cases h : (ask b memory).1 with
    | error failure =>
      rw [round_cons_of_error h]
      rfl
    | ok m =>
      cases hstop : m.stop with
      | true =>
        rw [round_cons_of_stop h hstop]
        exact hstop.symm
      | false =>
        rw [round_cons_of_ok h hstop]
        dsimp only
        rw [ih]
        cases (round ask bs (ask b memory).2).outcome with
        | error failure => rfl
        | ok later =>
          change later.stop = (m.stop || later.stop)
          rw [hstop, Bool.false_or]

theorem ended_of_error {bs : List (Subscriber σ)} {failure : Failure}
    (h : (round ask bs memory).outcome = .error failure) : (round ask bs memory).ended = true := by
  rw [ended_round, h]
  rfl

theorem ended_of_ok {bs : List (Subscriber σ)} {m : Mutation}
    (h : (round ask bs memory).outcome = .ok m) : (round ask bs memory).ended = m.stop := by
  rw [ended_round, h]
  rfl

/-- **Asking subscribers is a round.** What is gathered while they are asked is what the answers say
that are heard. -/
theorem askAll_eq_round (ask : Subscriber σ → σ → Answer σ) (bs : List (Subscriber σ))
    (memory : σ) :
    askAll ask bs memory = ((round ask bs memory).outcome, (round ask bs memory).memory) := by
  induction bs generalizing memory with
  | nil => rfl
  | cons b bs ih =>
    rw [askAll]
    rcases hanswer : ask b memory with ⟨failure | m, next⟩
    · rw [round_cons_of_error (congrArg Prod.fst hanswer), hanswer]
    · dsimp only
      cases hstop : m.stop with
      | true =>
        rw [round_cons_of_stop (congrArg Prod.fst hanswer) hstop, hanswer]
        rfl
      | false =>
        rw [round_cons_of_ok (congrArg Prod.fst hanswer) hstop, hanswer,
          if_neg Bool.false_ne_true, ih]
        cases (round ask bs next).outcome <;> rfl

/-! ## Groups -/

/-- Subscribers that act as one. -/
def group (bs : List (Subscriber σ)) : Subscriber σ where
  onEvent e view := askAll (fun b ↦ b.onEvent e view) bs
  onKind k text view := askAll (fun b ↦ b.onKind k text view) bs
  notify := tell bs

/-- An answer together with the answer of others, who are asked next unless it ends the round. -/
def followedBy (answer : Answer σ) (next : σ → Answer σ) : Answer σ :=
  match answer with
  | (.error failure, memory) => (.error failure, memory)
  | (.ok m, memory) =>
    if m.stop then (.ok m, memory)
    else
      match next memory with
      | (.error failure, memory) => (.error failure, memory)
      | (.ok later, memory) => (.ok (m.merge later), memory)

theorem askAll_cons (ask : Subscriber σ → σ → Answer σ) (b : Subscriber σ)
    (bs : List (Subscriber σ)) (memory : σ) :
    askAll ask (b :: bs) memory = followedBy (ask b memory) (askAll ask bs) := by
  rw [askAll]
  rcases ask b memory with ⟨failure | m, next⟩
  · rfl
  · rfl

theorem nothing_followedBy (memory : σ) (next : σ → Answer σ) :
    followedBy (.ok .nothing, memory) next = next memory := by
  have hstop : ¬Mutation.nothing.stop = true := Bool.false_ne_true
  rw [followedBy, if_neg hstop]
  rcases next memory with ⟨failure | later, last⟩
  · rfl
  · simp only [Mutation.nothing_merge]

theorem followedBy_assoc (answer : Answer σ) (next last : σ → Answer σ) :
    followedBy (followedBy answer next) last =
      followedBy answer fun memory ↦ followedBy (next memory) last := by
  obtain ⟨failure | m, memory⟩ := answer
  · rfl
  · cases hstop : m.stop with
    | true => simp only [followedBy, hstop, if_true]
    | false =>
      simp only [followedBy, hstop, Bool.false_eq_true, if_false]
      rcases next memory with ⟨failure | later, between⟩
      · rfl
      · have hmerge : (m.merge later).stop = later.stop := by
          rw [Mutation.merge, hstop, Bool.false_or]
        dsimp only
        rw [hmerge]
        cases later.stop with
        | true => rfl
        | false =>
          simp only [Bool.false_eq_true, if_false]
          rcases last between with ⟨failure | latest, memory⟩
          · rfl
          · simp only [Mutation.merge_assoc]

theorem askAll_append (ask : Subscriber σ → σ → Answer σ) (bs cs : List (Subscriber σ))
    (memory : σ) :
    askAll ask (bs ++ cs) memory = followedBy (askAll ask bs memory) (askAll ask cs) := by
  induction bs generalizing memory with
  | nil => exact (nothing_followedBy memory _).symm
  | cons b bs ih =>
    calc askAll ask (b :: (bs ++ cs)) memory
        = followedBy (ask b memory) (askAll ask (bs ++ cs)) := askAll_cons ask b _ memory
      _ = followedBy (ask b memory) fun next ↦ followedBy (askAll ask bs next) (askAll ask cs) :=
          congrArg (followedBy _) (funext ih)
      _ = followedBy (followedBy (ask b memory) (askAll ask bs)) (askAll ask cs) :=
          (followedBy_assoc _ _ _).symm
      _ = followedBy (askAll ask (b :: bs) memory) (askAll ask cs) := by rw [askAll_cons]

/-- Asking groups of subscribers is asking all of them. -/
theorem askAll_groups (hask : ∀ bs memory, ask (group bs) memory = askAll ask bs memory)
    (groups : List (List (Subscriber σ))) (memory : σ) :
    askAll ask (groups.map group) memory = askAll ask groups.flatten memory := by
  induction groups generalizing memory with
  | nil => rfl
  | cons bs groups ih =>
    rw [List.map_cons, List.flatten_cons, askAll_append, askAll_cons, hask]
    exact congrArg (followedBy _) (funext ih)

theorem tell_groups (groups : List (List (Subscriber σ))) (notice : Notice) (memory : σ) :
    tell (groups.map group) notice memory = tell groups.flatten notice memory := by
  rw [tell, tell, List.foldl_map, List.foldl_flatten]
  rfl

theorem tellAll_groups (groups : List (List (Subscriber σ))) (notices : List Notice) (memory : σ) :
    tellAll (groups.map group) notices memory = tellAll groups.flatten notices memory := by
  rw [tellAll, tellAll]
  simp only [tell_groups]

end Subscriber

end AgentSession
