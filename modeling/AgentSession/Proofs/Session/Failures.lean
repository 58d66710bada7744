import AgentSession.Proofs.Session.Effects
import AgentSession.Proofs.Session.Operation
/-!
# Events that fail

Handling an event can fail in three places: a subscriber fails when asked in general, the event
itself cannot be applied, or a subscriber fails when asked about what the event says. In the first
two nothing has happened to the session and nobody has been told anything. In the third the session
is as the event left it, and nothing that a subscriber asked for was done.

An event that cannot be applied is refused as a whole. A patch is tried on a copy of the state
document. A tool call is refused only by a message that holds it already, and a message that was
added for the call holds none; this is where identifiers have to be fresh.
-/

namespace AgentSession

variable {σ : Type}

theorem StateStore.patch_error_validation {store : StateStore} {delta : Json} {failure : Failure}
    (h : store.patch delta = .error failure) : ∃ message, failure = .validation message := by
  rw [patch] at h
  split at h
  · rename_i refused _
    exact ⟨refused.message, (Except.error.inj h).symm⟩
  · rename_i ops _
    cases hpatch : store.patchOps ops with
    | error refused =>
      rw [hpatch] at h
      exact ⟨refused.message, (Except.error.inj h).symm⟩
    | ok patched =>
      rw [hpatch] at h
      cases h

namespace Session

variable {s : Session} {k : EventKind} {failure : Failure}

/-- Every failure to apply an event is one of validation: the message that a new tool call belongs
to is never missing. -/
theorem apply_error_validation (h : (s.apply k).outcome = .error failure) :
    ∃ message, failure = .validation message := by
  rcases apply_error_cases h with ⟨callId, name, requested, -, hrefused, -⟩ | ⟨delta, hpatch, -⟩
  · exact openToolCall_error_validation hrefused
  · exact StateStore.patch_error_validation hpatch

/-- An event that cannot be applied leaves everything as it was. -/
theorem apply_of_error (hfresh : s.DrawsFresh k) (h : (s.apply k).outcome = .error failure) :
    s.apply k = ⟨s, [], .error failure⟩ := by
  rcases apply_error_cases h with ⟨callId, name, requested, hk, hrefused, heq⟩ | ⟨delta, -, heq⟩
  · rw [heq]
    refine openToolCall_of_error (fun hdrawn ↦ ?_) hrefused
    rw [← heq] at hdrawn
    exact hfresh hdrawn .message hk
  · exact heq

/-- **Failures leave no traces.** Applying an event never fails because the message of a tool call
is missing. If handling an event fails, then a subscriber failed when asked in general, or the event
could not be applied, and the session is as it was and no subscriber was told anything; or a
subscriber failed when asked about what the event says, and the session is as the event left it. -/
theorem handle_error_cases (s : Session) (subscribers : List (Subscriber σ)) (e : Event)
    (memory : σ) (hfresh : s.DrawsFresh e.kind) :
    (∀ parentId : String, (s.apply e.kind).outcome ≠
      .error (.state s!"parent message {parentId} vanished")) ∧
    ∀ failure, (s.handle subscribers e memory).outcome = .error failure →
      let general := s.askGeneral subscribers e memory
      (general.1 = .error failure ∧
          s.handle subscribers e memory = ⟨s, general.2, .error failure⟩) ∨
        (s.passes subscribers e memory = true ∧ (s.apply e.kind).outcome = .error failure ∧
          s.handle subscribers e memory = ⟨s, general.2, .error failure⟩) ∨
        (s.passes subscribers e memory = true ∧ ∃ text, (s.apply e.kind).outcome = .ok text ∧
          let answer := (s.apply e.kind).session.askKind subscribers e.kind text
            (s.memoryAfter subscribers e memory)
          answer.1 = .error failure ∧
            s.handle subscribers e memory =
              ⟨(s.apply e.kind).session, answer.2, .error failure⟩) := by
  constructor
  · intro parentId h
    obtain ⟨message, hmessage⟩ := apply_error_validation h
    cases hmessage
  · intro failure h general
    cases hgeneral : general.1 with
    | error refused =>
      rw [handle_of_askGeneral_error hgeneral] at h ⊢
      obtain rfl := Except.error.inj h
      exact .inl ⟨rfl, rfl⟩
    | ok m =>
      cases hstop : m.stop with
      | true =>
        rw [handle_of_stop hgeneral hstop] at h
        cases h
      | false =>
        have hpasses : s.passes subscribers e memory = true := passes_iff.2 ⟨m, hgeneral, hstop⟩
        refine .inr ?_
        cases houtcome : (s.apply e.kind).outcome with
        | error refused =>
          rw [handle_of_apply_error hpasses houtcome] at h ⊢
          obtain rfl := Except.error.inj h
          have hunchanged := apply_of_error hfresh houtcome
          refine .inl ⟨hpasses, rfl, ?_⟩
          rw [memoryAfter, hunchanged]
          rfl
        | ok text =>
          rw [handle_of_apply_ok hpasses houtcome] at h ⊢
          exact .inr ⟨hpasses, text, rfl, h, congrArg _ h⟩

/-- A tool call is refused because its message holds it, and a subscriber that counts what it is
told has counted nothing. -/
theorem handle_error_cases_duplicate :
    let s : Session :=
      { messages := [{ id := "p", role := .assistant, toolCalls := [ToolCall.new "t" "f"] }] }
    let counting : Subscriber Nat := { notify := fun _ told ↦ told + 1 }
    let e : Event := { kind := .toolCallStart "t" "g" (some "p"), timestamp := 0 }
    s.DrawsFresh e.kind ∧
      s.handle [counting] e 0 =
        ⟨s, 0, .error (.validation "duplicate tool call t in message p")⟩ := by
  intro s counting e
  have hfresh : s.DrawsFresh e.kind := fun hdrawn ↦ absurd rfl hdrawn
  have houtcome : (s.handle [counting] e 0).outcome =
      .error (.validation "duplicate tool call t in message p") := by decide
  refine ⟨hfresh, ?_⟩
  rcases (handle_error_cases s [counting] e 0 hfresh).2 _ houtcome with
    ⟨-, heq⟩ | ⟨-, -, heq⟩ | ⟨-, text, hok, -⟩
  · exact heq
  · exact heq
  · cases hok

end Session

end AgentSession
