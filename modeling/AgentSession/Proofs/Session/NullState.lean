import AgentSession.Proofs.Json.WholeDocument
import AgentSession.Proofs.Session.Effects
import AgentSession.Proofs.Session.Operation
/-!
# Sessions without a state document

A session always has a state document, but the document may be `null`. In the place of a snapshot
that is `null` comes the empty object. A patch has no such care: an operation at the root that has
`null` to put there puts it there, and if no later operation at the root mends it the session is
left with `null` (`StateStore.LeavesNull`).

Of all that happens to a session between its runs and in them, this is the only way to lose the
document, as long as nobody replaces it from outside: `Session.state_ne_null_iff`.
-/

namespace AgentSession

variable {σ : Type}

/-- An operation does not replace the state document from outside. -/
def Operation.LeavesState : Operation σ → Prop
  | .handle _ _ _ | .addMessage _ | .setMessages _ => True
  | .commit m => m.state = none
  | .setStore _ => False

/-! ## Patches of the state document -/

namespace StateStore

variable {store patched : StateStore} {delta : Json}

/-- The last document that a patch puts in the place of the whole one is `null`. -/
def LeavesNull (store : StateStore) (delta : Json) : Prop :=
  ∃ ops, Patch.ofJson delta = .ok ops ∧
    Patch.whole? store.createParents ops store.state = some .null

theorem leavesNull_iff {ops : List PatchOp} (hops : Patch.ofJson delta = .ok ops) :
    store.LeavesNull delta ↔ Patch.whole? store.createParents ops store.state = some .null := by
  constructor
  · rintro ⟨ops', hops', hwhole⟩
    obtain rfl : ops = ops' := Except.ok.inj (hops.symm.trans hops')
    exact hwhole
  · exact fun hwhole ↦ ⟨ops, hops, hwhole⟩

theorem leads_of_patch (h : store.patch delta = .ok patched) :
    ∃ ops, Patch.ofJson delta = .ok ops ∧
      Patch.Leads store.createParents ops store.state patched.state := by
  rw [patch] at h
  cases hops : Patch.ofJson delta with
  | error e =>
    rw [hops] at h
    cases h
  | ok ops =>
    rw [hops] at h
    dsimp only at h
    rw [patchOps] at h
    rcases happlied : Patch.apply store.createParents ops store.state with ⟨doc, _ | failure⟩
    · rw [happlied] at h
      cases h
      exact ⟨ops, rfl, Patch.applyFrom_eq_none_iff.1 happlied⟩
    · rw [happlied] at h
      cases h

/-- A patch leaves `null` in the place of another document exactly if it puts it there. -/
theorem patch_state_eq_null_iff (h : store.patch delta = .ok patched)
    (hstate : store.state ≠ .null) : patched.state = .null ↔ store.LeavesNull delta := by
  obtain ⟨ops, hops, hleads⟩ := leads_of_patch h
  rw [hleads.eq_null_iff, leavesNull_iff hops]
  cases Patch.whole? store.createParents ops store.state with
  | none => exact iff_of_false hstate nofun
  | some doc => exact Option.some_inj.symm

end StateStore

namespace Session

variable {s : Session} {k : EventKind}

/-! ## Events that leave the state document alone -/

theorem store_resolveParent (s : Session) (requested : Option String) :
    (s.resolveParent requested).2.1.store = s.store := by
  rcases s.resolveParent_cases requested with ⟨id, -, heq⟩ | ⟨id, ids, heq, -⟩
  · rw [heq]
  · rw [heq]

theorem store_openToolCall (s : Session) (callId name : String) (requested : Option String) :
    (s.openToolCall callId name requested).session.store = s.store := by
  have hresolved := s.store_resolveParent requested
  obtain ⟨parent, -, ⟨-, heq⟩ | ⟨-, messages, -, heq⟩⟩ := s.openToolCall_cases callId name requested
  · rw [heq]
    exact hresolved
  · rw [heq]
    exact hresolved

theorem store_startCall (s : Session) (callId name : String) (requested : Option String) :
    (s.startCall callId name requested).session.store = s.store := by
  have hopened := s.store_openToolCall callId name requested
  cases hopen : (s.openToolCall callId name requested).outcome with
  | error failure =>
    rw [startCall_of_error hopen]
    exact hopened
  | ok parentId =>
    rw [startCall_of_ok hopen]
    exact hopened

theorem store_chunkCall (s : Session) (callId : String) (name requested : Option String)
    (delta : String) : (s.chunkCall callId name requested delta).session.store = s.store := by
  have hopened := s.store_openToolCall callId (name.getD "") requested
  cases hfirst : s.appendArguments? callId delta with
  | some messages => rw [chunkCall_of_some hfirst]
  | none =>
    cases hopen : (s.openToolCall callId (name.getD "") requested).outcome with
    | error failure =>
      rw [chunkCall_of_error hfirst hopen]
      exact hopened
    | ok parentId =>
      rw [chunkCall_of_ok hfirst hopen]
      exact hopened

theorem store_chunkText (s : Session) (id : String) (role : Option Role) (delta : String) :
    (s.chunkText id role delta).session.store = s.store := by
  obtain ⟨ids, hlocated⟩ := s.chunkTarget_session id
  rcases s.chunkText_cases id role delta with ⟨messages, -, heq⟩ | ⟨-, heq⟩
  · rw [heq, hlocated]
  · rw [heq, hlocated]
    rfl

theorem store_continueThinking (s : Session) (delta : String) :
    (s.continueThinking delta).session.store = s.store := by
  by_cases hmessages : s.messages = []
  · rw [continueThinking_of_nil hmessages]
  · cases hthinking : s.openThinking with
    | none => rw [continueThinking_of_none hmessages hthinking]
    | some id => rw [continueThinking_of_some hmessages hthinking]

theorem store_endThinking (s : Session) : s.endThinking.session.store = s.store := by
  cases hthinking : s.openThinking with
  | none => rw [endThinking_of_none hthinking]
  | some id => rw [endThinking_of_some hthinking]

theorem store_resultOfCall (s : Session) (id : Option String) (callId result : String) :
    (s.resultOfCall id callId result).session.store = s.store := by
  rcases s.resultOfCall_cases id callId result with ⟨drawn, -, heq⟩ | heq
  · rw [heq]
    rfl
  · rw [heq]
    rfl

/-- Only a snapshot and a patch of the state document touch the store. -/
theorem store_apply (hsnapshot : k.type ≠ .stateSnapshot) (hdelta : k.type ≠ .stateDelta) :
    (s.apply k).session.store = s.store := by
  cases k with
  | textMessageStart id role =>
    change (s.startText id).session.store = s.store
    rw [startText]
    split <;> rfl
  | textMessageChunk id role delta => exact s.store_chunkText id role delta
  | thinkingTextMessageContent delta => exact s.store_continueThinking delta
  | thinkingTextMessageEnd => exact s.store_endThinking
  | toolCallStart callId name requested => exact s.store_startCall callId name requested
  | toolCallChunk callId name requested delta => exact s.store_chunkCall callId name requested delta
  | toolCallResult id callId result => exact s.store_resultOfCall id callId result
  | stateSnapshot snapshot => exact absurd rfl hsnapshot
  | stateDelta delta => exact absurd rfl hdelta
  | runFinished threadId runId result =>
    simp only [apply]
    split <;> rfl
  | _ => rfl

/-! ## One event -/

theorem state_replaceState_ne_null (s : Session) (snapshot : Json) :
    (s.replaceState snapshot).session.state ≠ .null := by
  change (if snapshot.isNull then Json.empty else snapshot) ≠ .null
  cases snapshot with
  | null => exact nofun
  | _ => exact nofun

/-- An event makes `null` of another document exactly if it is a patch that is applied without
failure and leaves `null`. -/
theorem apply_state_eq_null_iff (hs : s.state ≠ .null) :
    (s.apply k).session.state = .null ↔
      (s.apply k).outcome.isOk = true ∧
        ∃ delta, k = .stateDelta delta ∧ s.store.LeavesNull delta := by
  by_cases hsnapshot : k.type = .stateSnapshot
  · cases k with
    | stateSnapshot snapshot =>
      refine iff_of_false (s.state_replaceState_ne_null snapshot) ?_
      rintro ⟨-, delta, ⟨⟩, -⟩
    | _ => cases hsnapshot
  · by_cases hdelta : k.type = .stateDelta
    · cases k with
      | stateDelta delta =>
        change (s.patchState delta).session.state = .null ↔
          (s.patchState delta).outcome.isOk = true ∧ _
        rw [patchState]
        cases hpatch : s.store.patch delta with
        | error failure =>
          refine iff_of_false hs ?_
          rintro ⟨⟨⟩, -⟩
        | ok patched =>
          refine (StateStore.patch_state_eq_null_iff hpatch hs).trans ?_
          refine ⟨fun h ↦ ⟨rfl, delta, rfl, h⟩, ?_⟩
          rintro ⟨-, _, ⟨⟩, h⟩
          exact h
      | _ => cases hdelta
    · have hstore : (s.apply k).session.state = s.state :=
        congrArg StateStore.state (store_apply hsnapshot hdelta)
      rw [hstore]
      refine iff_of_false hs ?_
      rintro ⟨-, delta, rfl, -⟩
      exact hdelta rfl

/-! ## All operations -/

variable {op : Operation σ}

theorem perform_state_eq_null_iff (hs : s.state ≠ .null) (hop : op.LeavesState) :
    (s.perform op).state = .null ↔
      ∃ delta, s.applied? op = some (.stateDelta delta) ∧ s.store.LeavesNull delta := by
  cases op with
  | handle subscribers e memory =>
    change (s.handle subscribers e memory).session.state = .null ↔ _
    rw [handle_session, applied?]
    cases hpasses : s.passes subscribers e memory with
    | false =>
      refine iff_of_false hs ?_
      rintro ⟨delta, ⟨⟩, -⟩
    | true =>
      rw [if_pos rfl, apply_state_eq_null_iff hs, Bool.true_and]
      cases (s.apply e.kind).outcome.isOk with
      | false => simp
      | true => simp
  | commit m =>
    obtain ⟨messages, state, stop⟩ := m
    obtain rfl : state = none := hop
    have hstate : (s.perform (.commit ⟨messages, none, stop⟩ : Operation σ)).state = s.state := by
      cases messages <;> rfl
    rw [hstate]
    refine iff_of_false hs ?_
    rintro ⟨delta, ⟨⟩, -⟩
  | addMessage m =>
    refine iff_of_false hs ?_
    rintro ⟨delta, ⟨⟩, -⟩
  | setMessages messages =>
    refine iff_of_false hs ?_
    rintro ⟨delta, ⟨⟩, -⟩
  | setStore store => exact hop.elim

/-- **The state document is lost to patches only.** Let a session have a state document, and let
some operations replace none from outside. Then the session has one at every point of them, if and
only if no patch that is applied without failure leaves `null`. -/
theorem state_ne_null_iff (s : Session) (ops : List (Operation σ)) (hs : s.state ≠ .null)
    (hops : ∀ op ∈ ops, op.LeavesState) :
    (∀ before, before <+: ops → (s.performAll before).state ≠ .null) ↔
      ∀ t delta, (t, .stateDelta delta) ∈ s.applied ops → ¬t.store.LeavesNull delta := by
  induction ops generalizing s with
  | nil =>
    refine iff_of_true (fun before hbefore ↦ ?_) nofun
    rw [List.prefix_nil.1 hbefore]
    exact hs
  | cons op ops ih =>
    have hstep := perform_state_eq_null_iff hs (hops op List.mem_cons_self)
    have hrest : ∀ op ∈ ops, op.LeavesState := fun op hop ↦ hops op (List.mem_cons_of_mem _ hop)
    have happlied (t : Session) (delta : Json) :
        (t, .stateDelta delta) ∈ s.applied (op :: ops) ↔
          (t = s ∧ s.applied? op = some (.stateDelta delta)) ∨
            (t, .stateDelta delta) ∈ (s.perform op).applied ops := by
      rw [applied, List.mem_append, Option.mem_toList, Option.map_eq_some_iff]
      simp [and_comm, eq_comm]
    constructor
    · intro hnever t delta hmem
      have hnext : (s.perform op).state ≠ .null :=
        hnever [op] (List.cons_prefix_cons.2 ⟨rfl, List.nil_prefix⟩)
      rcases (happlied t delta).1 hmem with ⟨rfl, hop⟩ | hmem
      · exact fun hnull ↦ hnext (hstep.2 ⟨delta, hop, hnull⟩)
      · refine (ih (s.perform op) hnext hrest).1 (fun before hbefore ↦ ?_) t delta hmem
        exact hnever (op :: before) (List.cons_prefix_cons.2 ⟨rfl, hbefore⟩)
    · intro hpatches before hbefore
      have hnext : (s.perform op).state ≠ .null := by
        intro hnull
        obtain ⟨delta, hop, hleaves⟩ := hstep.1 hnull
        exact hpatches s delta ((happlied s delta).2 (.inl ⟨rfl, hop⟩)) hleaves
      cases before with
      | nil => exact hs
      | cons first before =>
        obtain ⟨rfl, htail⟩ := List.cons_prefix_cons.1 hbefore
        refine (ih (s.perform first) hnext hrest).2 (fun t delta hmem ↦ ?_) before htail
        exact hpatches t delta ((happlied t delta).2 (.inr hmem))

/-- A snapshot that is `null`, and a patch that puts `null` at the root and then an array: the
session has a document before and after each of the two. -/
theorem state_ne_null_iff_mended :
    let write (name : String) (value : Json) : Json :=
      .obj [("op", .str name), ("path", .str ""), ("value", value)]
    let delta : Json := .arr [write "replace" .null, write "add" (.arr [])]
    let s : Session := {}
    let ops : List (Operation Unit) :=
      [.handle [] { kind := .stateSnapshot .null, timestamp := 0 } (),
        .handle [] { kind := .stateDelta delta, timestamp := 0 } ()]
    s.state ≠ .null ∧ (∀ op ∈ ops, op.LeavesState) ∧
      ∀ before, before <+: ops → (s.performAll before).state ≠ .null := by
  intro write delta s ops
  have hs : s.state ≠ .null := by decide
  have hops : ∀ op ∈ ops, op.LeavesState := by
    simp [ops, Operation.LeavesState]
  refine ⟨hs, hops, (state_ne_null_iff s ops hs hops).2 ?_⟩
  have happlied : s.applied ops =
      [(s, .stateSnapshot .null), (s.performAll (ops.take 1), .stateDelta delta)] := by
    rfl
  intro t delta' hmem
  rw [happlied] at hmem
  obtain ⟨rfl, rfl⟩ : t = s.performAll (ops.take 1) ∧ delta' = delta := by
    simpa using hmem
  have hdelta : Patch.ofJson delta = .ok [.replace ⟨[]⟩ .null, .add ⟨[]⟩ (.arr [])] := by
    rfl
  rw [StateStore.leavesNull_iff hdelta]
  decide

/-- A patch that replaces the whole document by `null`. -/
theorem state_ne_null_iff_replaced :
    let delta : Json := .arr [.obj [("op", .str "replace"), ("path", .str ""), ("value", .null)]]
    let s : Session := {}
    let e : Event := { kind := .stateDelta delta, timestamp := 0 }
    let op : Operation Unit := .handle [] e ()
    s.state ≠ .null ∧ op.LeavesState ∧ (s.handle [] e ()).outcome = .ok .nothing ∧
      (s.performAll [op]).state = .null := by
  intro delta s e op
  exact ⟨by decide, trivial, by decide, by decide⟩

end Session

end AgentSession
