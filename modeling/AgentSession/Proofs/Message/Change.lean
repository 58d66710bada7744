import AgentSession.Proofs.Message.Locate
/-!
# One changed message

Every function that changes messages in place changes one of them. `Message.Changed` says so of two
lists: they are the same but for one message, and a relation tells what has become of it. The lemmas
of this module say which message each function changes, and when it changes none.

A message that is changed twice is changed once, and may be looked for again in between.

From this follows what an invariant of lists needs: identifiers stay distinct if the changed message
keeps its own and its tool calls stay distinct (`Message.Distinct.changed`).
-/

namespace AgentSession.Message

variable {ms ms' : List Message} {m m' : Message} {id callId delta : String}
  {R : Message → Message → Prop} {f : Message → Option Message}

/-- One message of a list has been changed, as `R` tells, and the others are as they were. -/
def Changed (R : Message → Message → Prop) (ms ms' : List Message) : Prop :=
  ∃ before m m' after, ms = before ++ m :: after ∧ ms' = before ++ m' :: after ∧ R m m'

theorem Changed.imp {Q : Message → Message → Prop} (h : Changed R ms ms')
    (hR : ∀ m m', R m m' → Q m m') : Changed Q ms ms' := by
  obtain ⟨before, m, m', after, hms, hms', hm⟩ := h
  exact ⟨before, m, m', after, hms, hms', hR m m' hm⟩

theorem Changed.cons (h : Changed R ms ms') (n : Message) : Changed R (n :: ms) (n :: ms') := by
  obtain ⟨before, m, m', after, rfl, rfl, hm⟩ := h
  exact ⟨n :: before, m, m', after, rfl, rfl, hm⟩

theorem Changed.head (hm : R m m') : Changed R (m :: ms) (m' :: ms) :=
  ⟨[], m, m', ms, rfl, rfl, hm⟩

/-- The message after the change is in the list, and was made from one that was. -/
theorem Changed.exists_mem (h : Changed R ms ms') : ∃ m ∈ ms, ∃ m' ∈ ms', R m m' := by
  obtain ⟨before, m, m', after, rfl, rfl, hm⟩ := h
  have hmem (n : Message) : n ∈ before ++ n :: after :=
    List.mem_append_right before List.mem_cons_self
  exact ⟨m, hmem m, m', hmem m', hm⟩

/-- The message that was changed was in the list. -/
theorem Changed.of_mem (h : Changed R ms ms') : Changed (fun m m' ↦ m ∈ ms ∧ R m m') ms ms' := by
  obtain ⟨before, m, m', after, rfl, rfl, hm⟩ := h
  exact ⟨before, m, m', after, rfl, rfl, List.mem_append_right before List.mem_cons_self, hm⟩

theorem Changed.map_id (h : Changed R ms ms') (hR : ∀ m m', R m m' → m'.id = m.id) :
    ms'.map Message.id = ms.map Message.id := by
  obtain ⟨before, m, m', after, rfl, rfl, hm⟩ := h
  rw [List.map_append, List.map_append, List.map_cons, List.map_cons, hR m m' hm]

/-! ## Which message is changed -/

theorem changed_of_modify? (h : modify? f id ms = some ms') :
    Changed (fun m m' ↦ find? ms id = some m ∧ f m = some m') ms ms' := by
  induction ms generalizing ms' with
  | nil => cases h
  | cons n ms ih =>
    rw [modify?] at h
    split at h
    · rename_i hn
      obtain ⟨n', hn', rfl⟩ := Option.map_eq_some_iff.1 h
      have hfind : find? (n :: ms) id = some n := by rw [find?_cons, if_pos hn]
      exact .head ⟨hfind, hn'⟩
    · rename_i hn
      obtain ⟨ms', hms', rfl⟩ := Option.map_eq_some_iff.1 h
      refine ((ih hms').cons n).imp fun m m' h ↦ ⟨?_, h.2⟩
      rw [find?_cons, if_neg hn, h.1]

theorem modify?_eq_none_iff : modify? f id ms = none ↔ ∀ m, find? ms id = some m → f m = none := by
  induction ms with
  | nil => exact ⟨fun _ _ ↦ nofun, fun _ ↦ rfl⟩
  | cons n ms ih =>
    rw [modify?, find?_cons]
    split
    · rw [Option.map_eq_none_iff]
      constructor
      · intro hn m hm
        rw [← Option.some.inj hm, hn]
      · intro h
        exact h n rfl
    · rw [Option.map_eq_none_iff, ih]

theorem changed_of_modifyNewest? (h : modifyNewest? f ms = some ms') :
    Changed (fun m m' ↦ f m = some m') ms ms' := by
  induction ms generalizing ms' with
  | nil => cases h
  | cons n ms ih =>
    rw [modifyNewest?] at h
    cases hms : modifyNewest? f ms with
    | some changed =>
      rw [hms] at h
      obtain rfl := Option.some.inj h
      exact (ih hms).cons n
    | none =>
      rw [hms] at h
      obtain ⟨n', hn', rfl⟩ := Option.map_eq_some_iff.1 h
      exact .head hn'

theorem modifyNewest?_eq_none_iff : modifyNewest? f ms = none ↔ ∀ m ∈ ms, f m = none := by
  induction ms with
  | nil => exact ⟨fun _ _ ↦ nofun, fun _ ↦ rfl⟩
  | cons n ms ih =>
    rw [modifyNewest?, List.forall_mem_cons, ← ih]
    cases modifyNewest? f ms with
    | some changed => simp
    | none => simp

theorem changed_appendToLast (delta : String) (h : ms ≠ []) :
    Changed (fun m m' ↦ m' = m.append delta) ms (appendToLast delta ms) := by
  induction ms with
  | nil => exact absurd rfl h
  | cons n ms ih =>
    cases ms with
    | nil => exact .head rfl
    | cons n' ms => exact (ih (List.cons_ne_nil n' ms)).cons n

/-! ## Arguments of tool calls -/

theorem findToolCall?_eq_none_iff :
    m.findToolCall? callId = none ↔ ∀ call ∈ m.toolCalls, call.id ≠ callId := by
  rw [findToolCall?, List.find?_eq_none]
  simp

theorem exists_of_appendCall? {calls calls' : List ToolCall}
    (h : appendCall? callId delta calls = some calls') :
    ∃ before call after, calls = before ++ call :: after ∧ call.id = callId ∧
      calls' = before ++ call.append delta :: after := by
  induction calls generalizing calls' with
  | nil => cases h
  | cons call calls ih =>
    rw [appendCall?] at h
    split at h
    · rename_i hid
      obtain rfl := Option.some.inj h
      exact ⟨[], call, calls, rfl, hid, rfl⟩
    · obtain ⟨calls', hcalls', rfl⟩ := Option.map_eq_some_iff.1 h
      obtain ⟨before, other, after, rfl, hid, rfl⟩ := ih hcalls'
      exact ⟨call :: before, other, after, rfl, hid, rfl⟩

theorem appendCall?_eq_none_iff {calls : List ToolCall} :
    appendCall? callId delta calls = none ↔ ∀ call ∈ calls, call.id ≠ callId := by
  induction calls with
  | nil => exact ⟨fun _ _ ↦ nofun, fun _ ↦ rfl⟩
  | cons call calls ih =>
    rw [appendCall?, List.forall_mem_cons, ← ih]
    by_cases hid : call.id = callId
    · simp [hid]
    · simp [hid]

theorem appendArguments?_eq_none_iff :
    appendArguments? callId delta m = none ↔ m.findToolCall? callId = none := by
  rw [appendArguments?, Option.map_eq_none_iff, appendCall?_eq_none_iff, findToolCall?_eq_none_iff]

theorem exists_of_appendArguments? (h : appendArguments? callId delta m = some m') :
    ∃ before call after, m.toolCalls = before ++ call :: after ∧ call.id = callId ∧
      m' = { m with toolCalls := before ++ call.append delta :: after } := by
  obtain ⟨calls', hcalls', rfl⟩ := Option.map_eq_some_iff.1 h
  obtain ⟨before, call, after, hcalls, hid, rfl⟩ := exists_of_appendCall? hcalls'
  exact ⟨before, call, after, hcalls, hid, rfl⟩

/-- More arguments for a tool call change no identifier. -/
theorem ids_of_appendArguments? (h : appendArguments? callId delta m = some m') :
    m'.id = m.id ∧ m'.toolCalls.map ToolCall.id = m.toolCalls.map ToolCall.id := by
  obtain ⟨before, call, after, hcalls, -, rfl⟩ := exists_of_appendArguments? h
  refine ⟨rfl, ?_⟩
  rw [hcalls, List.map_append, List.map_append, List.map_cons, List.map_cons]
  rfl

/-! ## Changing twice -/

section

variable {f' : Message → Option Message} {g : Message → Message}

/-- Only the message that is found matters. -/
theorem modify?_congr (h : ∀ m, find? ms id = some m → f m = f' m) :
    modify? f id ms = modify? f' id ms := by
  induction ms with
  | nil => rfl
  | cons n ms ih =>
    rw [modify?, modify?]
    by_cases hn : n.id = id
    · have hfound : f n = f' n := h n (by rw [find?_cons, if_pos hn])
      rw [if_pos hn, if_pos hn, hfound]
    · have hrest : modify? f id ms = modify? f' id ms := ih fun m hm ↦ h m (by
        rw [find?_cons, if_neg hn, hm])
      rw [if_neg hn, if_neg hn, hrest]

/-- Changing the same message twice is changing it once. -/
theorem modify?_of_modify? (h : modify? (fun m ↦ some (g m)) id ms = some ms')
    (hid : ∀ m, (g m).id = m.id) : modify? f id ms' = modify? (fun m ↦ f (g m)) id ms := by
  induction ms generalizing ms' with
  | nil => cases h
  | cons n ms ih =>
    rw [modify?] at h ⊢
    by_cases hn : n.id = id
    · rw [if_pos hn] at h ⊢
      obtain rfl := Option.some.inj h
      rw [modify?, if_pos ((hid n).trans hn)]
    · rw [if_neg hn] at h ⊢
      obtain ⟨rest, hrest, rfl⟩ := Option.map_eq_some_iff.1 h
      rw [modify?, if_neg hn, ih hrest]

/-- If `f` changes none of the messages, the newest that it changes afterwards is the one that has
been changed. -/
theorem modifyNewest?_of_modify? (h : modify? (fun m ↦ some (g m)) id ms = some ms')
    (hf : ∀ m ∈ ms, f m = none) : modifyNewest? f ms' = modify? (fun m ↦ f (g m)) id ms := by
  induction ms generalizing ms' with
  | nil => cases h
  | cons n ms ih =>
    obtain ⟨hfn, hfms⟩ := List.forall_mem_cons.1 hf
    rw [modify?] at h ⊢
    by_cases hn : n.id = id
    · rw [if_pos hn] at h ⊢
      obtain rfl := Option.some.inj h
      rw [modifyNewest?, modifyNewest?_eq_none_iff.2 hfms]
    · rw [if_neg hn] at h ⊢
      obtain ⟨rest, hrest, rfl⟩ := Option.map_eq_some_iff.1 h
      rw [modifyNewest?, ih hrest hfms]
      cases modify? (fun m ↦ f (g m)) id ms with
      | none => rw [hfn, Option.map_none, Option.map_none]
      | some changed => rfl

/-- A message with a new identifier is found at the end. -/
theorem modify?_concat (h : m.id ∉ ms.map Message.id) :
    modify? f m.id (ms ++ [m]) = (f m).map fun m' ↦ ms ++ [m'] := by
  induction ms with
  | nil => rw [List.nil_append, modify?, if_pos rfl]; rfl
  | cons n ms ih =>
    obtain ⟨hn, hms⟩ := not_or.1 (List.mem_cons.not.1 (List.map_cons ▸ h))
    rw [List.cons_append, modify?, if_neg (Ne.symm hn), ih hms, Option.map_map]
    rfl

/-- A call that was added to a message without it is the one that gains arguments. -/
theorem appendArguments?_addToolCall {call : ToolCall} (h : m.findToolCall? call.id = none)
    (delta : String) :
    appendArguments? call.id delta (m.addToolCall call) =
      some (m.addToolCall (call.append delta)) := by
  have hcalls (calls : List ToolCall) (hnone : ∀ other ∈ calls, other.id ≠ call.id) :
      appendCall? call.id delta (calls ++ [call]) = some (calls ++ [call.append delta]) := by
    induction calls with
    | nil => rw [List.nil_append, appendCall?, if_pos rfl]; rfl
    | cons other calls ih =>
      obtain ⟨hother, hrest⟩ := List.forall_mem_cons.1 hnone
      rw [List.cons_append, appendCall?, if_neg hother, ih hrest]
      rfl
  rw [appendArguments?, addToolCall, hcalls m.toolCalls (findToolCall?_eq_none_iff.1 h)]
  rfl

/-- Adding a call to a message without it, and then arguments to the call, is adding the call with
the arguments. -/
theorem exists_modify?_addToolCall {call : ToolCall} (hfind : find? ms id = some m)
    (h : m.findToolCall? call.id = none) (delta : String) :
    ∃ gained, modify? (fun m ↦ some (m.addToolCall (call.append delta))) id ms = some gained ∧
      modify? (fun m ↦ appendArguments? call.id delta (m.addToolCall call)) id ms =
        some gained := by
  obtain ⟨gained, hgained, -⟩ := exists_modify?
    (f := fun m ↦ some (m.addToolCall (call.append delta))) hfind rfl rfl
  refine ⟨gained, hgained, ?_⟩
  rw [← hgained]
  refine modify?_congr fun found hfound ↦ appendArguments?_addToolCall ?_ delta
  rw [Option.some.inj (hfound.symm.trans hfind)]
  exact h

end

/-! ## Distinct identifiers -/

/-- No two messages have the same identifier, and no message holds two tool calls with the same. -/
structure Distinct (ms : List Message) : Prop where
  ids : (ms.map Message.id).Nodup
  calls : ∀ m ∈ ms, (m.toolCalls.map ToolCall.id).Nodup

theorem Distinct.changed (h : Distinct ms) (hc : Changed R ms ms')
    (hR : ∀ m m', R m m' → (m.toolCalls.map ToolCall.id).Nodup →
      m'.id = m.id ∧ (m'.toolCalls.map ToolCall.id).Nodup) : Distinct ms' := by
  obtain ⟨before, m, m', after, rfl, rfl, hm⟩ := hc
  obtain ⟨hids, hcalls⟩ := h
  have hmem : m ∈ before ++ m :: after := List.mem_append_right before List.mem_cons_self
  obtain ⟨hid, hnodup⟩ := hR m m' hm (hcalls m hmem)
  constructor
  · rw [List.map_append, List.map_cons, hid, ← List.map_cons, ← List.map_append]
    exact hids
  · intro n hn
    rcases List.mem_append.1 hn with hn | hn
    · exact hcalls n (List.mem_append_left _ hn)
    · rcases List.mem_cons.1 hn with rfl | hn
      · exact hnodup
      · exact hcalls n (List.mem_append_right before (List.mem_cons_of_mem m hn))

theorem Distinct.concat (h : Distinct ms) (hid : m.id ∉ ms.map Message.id)
    (hcalls : (m.toolCalls.map ToolCall.id).Nodup) : Distinct (ms ++ [m]) := by
  constructor
  · rw [List.map_append, List.map_singleton]
    exact List.concat_eq_append ▸ h.ids.concat hid
  · intro n hn
    rcases List.mem_append.1 hn with hn | hn
    · exact h.calls n hn
    · rw [List.mem_singleton.1 hn]
      exact hcalls

end AgentSession.Message
