import AgentSession.Framing.Body
import AgentSession.Middleware.Retry
import AgentSession.Proofs.Agent.Operations
import AgentSession.Proofs.Agent.Preparation
import AgentSession.Proofs.Session.Identifiers
/-!
# Attempts at a run

A stage may suppress the failure of a run, and the caller then tries again with the same parameters.
But a run adds the messages of the caller to the session before anything can fail, and what it has
done stays done. So every attempt adds them once more.

* As long as nobody replaces the list of messages, there are as many copies of each message of the
  caller as there were attempts. The identifiers are then distinct after one attempt, and no more
  after a second one, unless the caller brings no messages (`Agent.copies_attemptAll`).
* Where the list is replaced between attempts, the identifiers stay distinct as long as no attempt
  finds a message of the caller in the session (`Agent.nodup_attemptAll`).

What events add between attempts does no harm, as an event adds a message under a new identifier
only (`Session.extends_performAll`).
-/

namespace AgentSession

variable {σ : Type}

/-! ## Lists of identifiers that grow -/

namespace Message

variable {ids ids' ids'' : List String} {ms ms' : List Message}

/-- Identifiers with others after them, which are new and distinct. -/
def Extends (ids ids' : List String) : Prop :=
  ∃ added, ids' = ids ++ added ∧ added.Nodup ∧ ∀ id ∈ added, id ∉ ids

theorem Extends.refl (ids : List String) : Extends ids ids :=
  ⟨[], (List.append_nil ids).symm, List.nodup_nil, List.forall_mem_nil _⟩

theorem Extends.trans (h : Extends ids ids') (h' : Extends ids' ids'') : Extends ids ids'' := by
  obtain ⟨added, rfl, hadded, hnew⟩ := h
  obtain ⟨later, rfl, hlater, hnewer⟩ := h'
  refine ⟨added ++ later, List.append_assoc .., ?_, ?_⟩
  · refine List.nodup_append.2 ⟨hadded, hlater, fun id hid id' hid' heq ↦ ?_⟩
    exact hnewer id' hid' (heq ▸ List.mem_append_right ids hid)
  · intro id hid
    rcases List.mem_append.1 hid with hid | hid
    · exact hnew id hid
    · exact fun hmem ↦ hnewer id hid (List.mem_append_left added hmem)

theorem Extends.nodup (h : Extends ids ids') (hids : ids.Nodup) : ids'.Nodup := by
  obtain ⟨added, rfl, hadded, hnew⟩ := h
  refine List.nodup_append.2 ⟨hids, hadded, fun id hid id' hid' heq ↦ ?_⟩
  exact hnew id' hid' (heq ▸ hid)

/-- An identifier that was there has not become more frequent. -/
theorem Extends.count_eq (h : Extends ids ids') {id : String} (hid : id ∈ ids) :
    ids'.count id = ids.count id := by
  obtain ⟨added, rfl, -, hnew⟩ := h
  have hnone : added.count id = 0 := List.count_eq_zero.2 fun hmem ↦ hnew id hmem hid
  rw [List.count_append, hnone, Nat.add_zero]

theorem extends_of_steps {fresh : Prop} (hfresh : fresh) (h : Steps fresh ms ms') :
    Extends (ms.map Message.id) (ms'.map Message.id) := by
  induction h with
  | refl => exact .refl _
  | tail _ hstep ih =>
    refine ih.trans ?_
    cases hstep with
    | grow hchanged =>
      rw [hchanged.map_id fun m m' hm ↦ hm.id_eq]
      exact .refl _
    | @add m hcalls hid =>
      refine ⟨[m.id], List.map_append, List.nodup_singleton _, ?_⟩
      exact List.forall_mem_singleton.2 (hid hfresh)

end Message

/-! ## Operations that replace the messages, and others -/

/-- The operation replaces the list of messages. -/
def Operation.Replaces : Operation σ → Prop
  | .handle _ e _ => ∃ messages, e.kind = .messagesSnapshot messages
  | .commit m => m.messages ≠ none
  | .setMessages _ => True
  | .addMessage _ | .setStore _ => False

namespace Operation

/-- The operation brings nothing from outside: it draws no identifier and replaces no messages. -/
def isPlain : Operation σ → Bool
  | .handle _ e _ =>
    match e.kind with
    | .messagesSnapshot _ => false
    | kind => kind.drawnKind?.isNone
  | .commit m => m.messages.isNone
  | .addMessage _ | .setMessages _ => false
  | .setStore _ => true

theorem not_replaces_of_isPlain {op : Operation σ} (h : op.isPlain = true) : ¬op.Replaces := by
  cases op with
  | handle subscribers e memory =>
    rintro ⟨messages, heq⟩
    rw [isPlain, heq] at h
    cases h
  | commit m => exact fun hreplaces ↦ hreplaces (Option.isNone_iff_eq_none.1 h)
  | addMessage m => exact id
  | setMessages messages => cases h
  | setStore store => exact id

end Operation

namespace Session

open Message (Extends)

variable {s : Session} {op : Operation σ} {ops : List (Operation σ)}

theorem mutate_messages (s : Session) (m : Mutation) :
    (s.mutate m).messages = m.messages.getD s.messages := by
  rcases m with ⟨_ | messages, _ | doc, stop⟩
  · rfl
  · rfl
  · rfl
  · rfl

theorem admissible_of_isPlain (h : op.isPlain = true) : s.Admissible op := by
  have hkeeps := Operation.not_replaces_of_isPlain h
  cases op with
  | handle subscribers e memory =>
    have hdraws : e.kind.drawnKind? = none := by
      rw [Operation.isPlain] at h
      split at h
      · cases h
      · exact Option.isNone_iff_eq_none.1 h
    refine fun _ ↦ ⟨fun _ kind hkind ↦ ?_, fun messages heq ↦ (hkeeps ⟨messages, heq⟩).elim⟩
    rw [hdraws] at hkind
    cases hkind
  | commit m =>
    intro messages heq
    rw [Operation.isPlain, heq] at h
    cases h
  | addMessage m => cases h
  | setMessages messages => cases h
  | setStore store => trivial

theorem allAdmissible_of_isPlain (h : ∀ op ∈ ops, op.isPlain = true) : s.AllAdmissible ops := by
  induction ops generalizing s with
  | nil => trivial
  | cons op ops ih =>
    obtain ⟨hop, hops⟩ := List.forall_mem_cons.1 h
    exact ⟨admissible_of_isPlain hop, ih hops⟩

theorem extends_perform (hop : s.Admissible op) (hkeeps : ¬op.Replaces) :
    Extends (s.messages.map Message.id) ((s.perform op).messages.map Message.id) := by
  cases op with
  | handle subscribers e memory =>
    change Extends _ ((s.handle subscribers e memory).session.messages.map Message.id)
    rw [handle_session]
    split
    · rename_i hpasses
      exact Message.extends_of_steps (hop hpasses).1
        (steps_apply fun messages heq ↦ hkeeps ⟨messages, heq⟩)
    · exact .refl _
  | commit m =>
    have hnone : m.messages = none := not_not.1 hkeeps
    change Extends _ ((s.mutate m).messages.map Message.id)
    rw [mutate_messages, hnone]
    exact .refl _
  | addMessage m =>
    exact ⟨[m.id], List.map_append, List.nodup_singleton _, List.forall_mem_singleton.2 hop⟩
  | setMessages messages => exact absurd trivial hkeeps
  | setStore store => exact .refl _

theorem nodup_perform (h : (s.messages.map Message.id).Nodup) (hop : s.Admissible op) :
    ((s.perform op).messages.map Message.id).Nodup := by
  by_cases hkeeps : op.Replaces
  · cases op with
    | handle subscribers e memory =>
      obtain ⟨messages, hkind⟩ := hkeeps
      change ((s.handle subscribers e memory).session.messages.map Message.id).Nodup
      rw [handle_session]
      split
      · rename_i hpasses
        rw [hkind]
        exact ((hop hpasses).2 messages hkind).ids
      · exact h
    | commit m =>
      obtain ⟨messages, hmessages⟩ := Option.ne_none_iff_exists'.1 hkeeps
      change ((s.mutate m).messages.map Message.id).Nodup
      rw [mutate_messages, hmessages]
      exact (hop messages hmessages).ids
    | setMessages messages => exact hop.ids
    | addMessage m => exact hkeeps.elim
    | setStore store => exact hkeeps.elim
  · exact (extends_perform hop hkeeps).nodup h

theorem extends_performAll (hops : s.AllAdmissible ops) (hkeeps : ∀ op ∈ ops, ¬op.Replaces) :
    Extends (s.messages.map Message.id) ((s.performAll ops).messages.map Message.id) := by
  induction ops generalizing s with
  | nil => exact .refl _
  | cons op ops ih =>
    obtain ⟨hop, hops⟩ := hops
    obtain ⟨hfirst, hrest⟩ := List.forall_mem_cons.1 hkeeps
    exact (extends_perform hop hfirst).trans (ih hops hrest)

theorem nodup_performAll (h : (s.messages.map Message.id).Nodup) (hops : s.AllAdmissible ops) :
    ((s.performAll ops).messages.map Message.id).Nodup := by
  induction ops generalizing s with
  | nil => exact h
  | cons op ops ih =>
    obtain ⟨hop, hops⟩ := hops
    exact ih (nodup_perform h hop) hops

end Session

/-! ## Attempts -/

/-- What an attempt at a run meets with: when it is cancelled, if it is, and the transport. -/
structure Attempt (σ : Type) where
  waits : Option Nat := none
  transport : Transport σ

namespace Agent

variable {params : RunParams} {a : Agent σ} {x : Attempt σ} {xs : List (Attempt σ)}

def attempt (a : Agent σ) (params : RunParams) (x : Attempt σ) : Outcome × Agent σ :=
  a.run params x.waits x.transport

/-- The agent after some attempts at a run with the same parameters. -/
def attemptAll (a : Agent σ) (params : RunParams) : List (Attempt σ) → Agent σ
  | [] => a
  | x :: xs => (a.attempt params x).2.attemptAll params xs

/-- The session that an attempt begins with, and the operations that it then performs. There are
none if the run is refused while it is prepared. -/
def attempted (a : Agent σ) (params : RunParams) (x : Attempt σ) : Session × List (Operation σ) :=
  match a.prepare params with
  | (.error _, b) => (b.session, [])
  | (.ok request, b) =>
    let (received, r) := b.opened request x.waits x.transport
    (r.agent.session, r.operations received.payloads)

/-- Something holds of each of some attempts and the agent that makes it. -/
def AllAttempts (P : RunParams → Agent σ → Attempt σ → Prop) (params : RunParams) (a : Agent σ) :
    List (Attempt σ) → Prop
  | [] => True
  | x :: xs => P params a x ∧ (a.attempt params x).2.AllAttempts P params xs

/-! ## One attempt -/

theorem session_attempt (a : Agent σ) (params : RunParams) (x : Attempt σ) :
    (a.attempt params x).2.session =
      (a.attempted params x).1.performAll (a.attempted params x).2 := by
  rw [attempt, attempted, run_eq_driveOver]
  rcases a.prepare params with ⟨failure | request, b⟩
  · rfl
  · exact Running.session_driveOver _ _

/-- **What an attempt begins with.** Whatever becomes of it, an attempt first adds the messages of
the caller. -/
theorem messages_attempted (a : Agent σ) (params : RunParams) (x : Attempt σ) :
    (a.attempted params x).1.messages = a.session.messages ++ params.messages := by
  rw [attempted, ← messages_prepare]
  rcases a.prepare params with ⟨failure | request, b⟩
  · rfl
  · rcases x with ⟨_ | _ | n, transport⟩
    · rfl
    · rfl
    · rfl

/-- What an attempt performs brings identifiers as sessions need them: an identifier that is drawn
is fresh, and a list of messages that replaces another has distinct ones. -/
structure BringsNew (params : RunParams) (a : Agent σ) (x : Attempt σ) : Prop where
  admissible : (a.attempted params x).1.AllAdmissible (a.attempted params x).2

/-- Nothing that an attempt performs replaces the list of messages. -/
structure KeepsMessages (params : RunParams) (a : Agent σ) (x : Attempt σ) : Prop where
  keeps : ∀ op ∈ (a.attempted params x).2, ¬op.Replaces

/-- The session has no message of the caller when an attempt is made. -/
def FindsNone (params : RunParams) (a : Agent σ) (_ : Attempt σ) : Prop :=
  ∀ m ∈ params.messages, m.id ∉ a.session.messages.map Message.id

theorem bringsNew_of_isPlain (h : ∀ op ∈ (a.attempted params x).2, op.isPlain = true) :
    BringsNew params a x :=
  ⟨Session.allAdmissible_of_isPlain h⟩

theorem keepsMessages_of_isPlain (h : ∀ op ∈ (a.attempted params x).2, op.isPlain = true) :
    KeepsMessages params a x :=
  ⟨fun op hop ↦ Operation.not_replaces_of_isPlain (h op hop)⟩

theorem nodup_attempt (ha : (a.session.messages.map Message.id).Nodup)
    (hparams : (params.messages.map Message.id).Nodup) (hnew : BringsNew params a x)
    (hnone : FindsNone params a x) :
    ((a.attempt params x).2.session.messages.map Message.id).Nodup := by
  rw [session_attempt]
  refine Session.nodup_performAll ?_ hnew.admissible
  rw [messages_attempted, List.map_append]
  refine List.nodup_append.2 ⟨ha, hparams, fun id hid id' hid' heq ↦ ?_⟩
  obtain ⟨m, hm, rfl⟩ := List.mem_map.1 hid'
  exact hnone m hm (heq ▸ hid)

/-- An attempt adds one copy of each message of the caller. -/
theorem count_attempt (hparams : (params.messages.map Message.id).Nodup)
    (hnew : BringsNew params a x) (hkeeps : KeepsMessages params a x) {m : Message}
    (hm : m ∈ params.messages) :
    ((a.attempt params x).2.session.messages.map Message.id).count m.id =
      (a.session.messages.map Message.id).count m.id + 1 := by
  have hmem : m.id ∈ params.messages.map Message.id := List.mem_map_of_mem hm
  have hbegins : (a.attempted params x).1.messages.map Message.id =
      a.session.messages.map Message.id ++ params.messages.map Message.id := by
    rw [messages_attempted, List.map_append]
  have hextends := Session.extends_performAll hnew.admissible hkeeps.keeps
  rw [hbegins] at hextends
  rw [session_attempt, hextends.count_eq (List.mem_append_right _ hmem), List.count_append,
    List.count_eq_one_of_mem hparams hmem]

/-! ## Several attempts -/

theorem allAttempts_of_forall {P : RunParams → Agent σ → Attempt σ → Prop}
    (h : ∀ a x, P params a x) (a : Agent σ) (xs : List (Attempt σ)) :
    a.AllAttempts P params xs := by
  induction xs generalizing a with
  | nil => trivial
  | cons x xs ih => exact ⟨h a x, ih _⟩

theorem nodup_attemptAll (ha : (a.session.messages.map Message.id).Nodup)
    (hparams : (params.messages.map Message.id).Nodup) (hnew : a.AllAttempts BringsNew params xs)
    (hnone : a.AllAttempts FindsNone params xs) :
    ((a.attemptAll params xs).session.messages.map Message.id).Nodup := by
  induction xs generalizing a with
  | nil => exact ha
  | cons x xs ih =>
    obtain ⟨hnew, hlater⟩ := hnew
    obtain ⟨hnone, hnoneLater⟩ := hnone
    exact ih (nodup_attempt ha hparams hnew hnone) hlater hnoneLater

theorem count_attemptAll (hparams : (params.messages.map Message.id).Nodup)
    (hnew : a.AllAttempts BringsNew params xs) (hkeeps : a.AllAttempts KeepsMessages params xs)
    {m : Message} (hm : m ∈ params.messages) :
    ((a.attemptAll params xs).session.messages.map Message.id).count m.id =
      (a.session.messages.map Message.id).count m.id + xs.length := by
  induction xs generalizing a with
  | nil => rfl
  | cons x xs ih =>
    obtain ⟨hnew, hlater⟩ := hnew
    obtain ⟨hkeeps, hkeepsLater⟩ := hkeeps
    have hfirst := count_attempt hparams hnew hkeeps hm
    have hrest := ih hlater hkeepsLater
    rw [attemptAll, hrest, hfirst, List.length_cons]
    omega

/-- **Attempts repeat messages.** Let an agent have distinct identifiers, and let it make some
attempts at a run with the same parameters, whose messages have distinct identifiers that are new to
it. Every attempt may end in any way, and perform what it likes as long as it brings identifiers as
sessions need them.

* If no attempt finds a message of the caller in the session, identifiers are distinct afterwards.
* If no attempt replaces the list of messages, there is one copy of each message of the caller for
  each attempt. Identifiers are then distinct only after one attempt at most, or if the caller
  brings no messages. -/
theorem copies_attemptAll (a : Agent σ) (params : RunParams) (xs : List (Attempt σ))
    (ha : (a.session.messages.map Message.id).Nodup)
    (hparams : (params.messages.map Message.id).Nodup)
    (hfirst : ∀ m ∈ params.messages, m.id ∉ a.session.messages.map Message.id)
    (hnew : a.AllAttempts BringsNew params xs) :
    let ids := (a.attemptAll params xs).session.messages.map Message.id
    (a.AllAttempts FindsNone params xs → ids.Nodup) ∧
    (a.AllAttempts KeepsMessages params xs →
      (∀ m ∈ params.messages, ids.count m.id = xs.length) ∧
      (ids.Nodup ↔ xs.length ≤ 1 ∨ params.messages = [])) := by
  intro ids
  refine ⟨nodup_attemptAll ha hparams hnew, fun hkeeps ↦ ?_⟩
  have hcount : ∀ m ∈ params.messages, ids.count m.id = xs.length := by
    intro m hm
    have hnone : (a.session.messages.map Message.id).count m.id = 0 :=
      List.count_eq_zero.2 (hfirst m hm)
    rw [count_attemptAll hparams hnew hkeeps hm, hnone, Nat.zero_add]
  refine ⟨hcount, ?_, ?_⟩
  · intro hnodup
    cases hmessages : params.messages with
    | nil => exact .inr rfl
    | cons m rest =>
      have hm : m ∈ params.messages := hmessages ▸ List.mem_cons_self
      exact .inl (hcount m hm ▸ List.nodup_iff_count_le_one.1 hnodup m.id)
  · intro h
    refine nodup_attemptAll ha hparams hnew ?_
    rcases h with hlength | hmessages
    · rcases xs with _ | ⟨x, _ | ⟨y, ys⟩⟩
      · trivial
      · exact ⟨hfirst, trivial⟩
      · exact absurd hlength (by simp)
    · refine allAttempts_of_forall (fun b x m hm ↦ ?_) a xs
      rw [hmessages] at hm
      cases hm

end Agent

/-! ## A retried run -/

/-- An agent with a retry budget. -/
def retryingAgent : Agent Attempts where
  endpoint := { url := "u", agentId := none, headers := [], timeoutMs := 0, policy := .skip }
  session := {}
  stages := { entries := [(1, Retry.stage {} .whole)], issued := 1 }
  clock := { moment := fun n ↦ { now := n, freshId := fun _ ↦ "f" } }
  memory := []

namespace Attempt

/-- The transport cannot open a stream. -/
def refused : Attempt Attempts :=
  { transport := fun _ counts ↦ (.error (.network "refused"), counts) }

/-- The transport opens a stream that begins a message and is then lost. -/
def lost : Attempt Attempts :=
  let start : Json := .obj [("type", .str "TEXT_MESSAGE_START"), ("messageId", .str "a")]
  let body : Body := { parts := [.event start] }
  { transport := fun _ counts ↦ (.ok [.ok body.bytes, .error (.network "lost")], counts) }

end Attempt

namespace Agent

/-- A retried run of which nothing arrives: both attempts are suppressed, and the message of the
caller is there twice. -/
theorem copies_attemptAll_retried :
    let a := retryingAgent
    let params : RunParams := { runId := some "r", messages := [{ id := "u", role := .user }] }
    let first := a.attempt params .refused
    let second := first.2.attempt params .refused
    (a.session.messages.map Message.id).Nodup ∧ (params.messages.map Message.id).Nodup ∧
      (∀ m ∈ params.messages, m.id ∉ a.session.messages.map Message.id) ∧
      a.AllAttempts BringsNew params [.refused, .refused] ∧
      first.1 = .suppressed ∧ second.1 = .suppressed ∧
      second.2.session.messages.map Message.id = ["u", "u"] := by
  intro a params first second
  exact ⟨by decide, by decide, by decide, ⟨⟨trivial⟩, ⟨trivial⟩, trivial⟩, by decide +kernel,
    by decide +kernel, by decide +kernel⟩

/-- The first stream begins a message and is lost, and so is the second. -/
theorem copies_attemptAll_lost :
    let a := retryingAgent
    let params : RunParams := { runId := some "r", messages := [{ id := "u", role := .user }] }
    let xs : List (Attempt Attempts) := [.lost, .lost]
    let ids := (a.attemptAll params xs).session.messages.map Message.id
    a.AllAttempts BringsNew params xs ∧ a.AllAttempts KeepsMessages params xs ∧
      ids = ["u", "a", "u"] ∧ ids.count "u" = 2 ∧ ¬ids.Nodup := by
  intro a params xs ids
  have hfirst : ∀ op ∈ (a.attempted params .lost).2, op.isPlain = true := by decide +kernel
  have hsecond : ∀ op ∈ ((a.attempt params .lost).2.attempted params .lost).2,
      op.isPlain = true := by decide +kernel
  have hnew : a.AllAttempts BringsNew params xs :=
    ⟨bringsNew_of_isPlain hfirst, bringsNew_of_isPlain hsecond, trivial⟩
  have hkeeps : a.AllAttempts KeepsMessages params xs :=
    ⟨keepsMessages_of_isPlain hfirst, keepsMessages_of_isPlain hsecond, trivial⟩
  have hids : ids = ["u", "a", "u"] := by decide +kernel
  have hm : ({ id := "u", role := .user } : Message) ∈ params.messages := List.mem_singleton_self _
  have hmany : ¬(xs.length ≤ 1 ∨ params.messages = []) := by decide
  obtain ⟨hcount, hnodup⟩ :=
    (copies_attemptAll a params xs (by decide) (by decide) (by decide) hnew).2 hkeeps
  have htwo := hcount _ hm
  exact ⟨hnew, hkeeps, hids, htwo, fun h ↦ hmany (hnodup.1 h)⟩

end Agent

end AgentSession
