import AgentSession.Message.Locate
import Mathlib.Data.List.Nodup
/-!
# Laws of finding and changing messages

A list of messages is read through `Message.find?`. Where no two messages have the same identifier,
the list says no more than that, up to its order. Adding and changing a message are described by
what is found afterwards: `Message.find?_ensured` and `Message.exists_modify?`.
-/

namespace AgentSession.Message

variable {ms : List Message} {m m' : Message} {id : String}

/-! ## Finding -/

theorem id_of_find? (h : find? ms id = some m) : m.id = id := by
  simpa using List.find?_some h

theorem mem_of_find? (h : find? ms id = some m) : m ∈ ms := List.mem_of_find?_eq_some h

theorem has_eq_isSome_find? (ms : List Message) (id : String) :
    has ms id = (find? ms id).isSome := by
  rw [has, find?, List.isSome_find?]

theorem find?_cons (m : Message) (ms : List Message) (id : String) :
    find? (m :: ms) id = if m.id = id then some m else find? ms id := by
  rw [find?, List.find?_cons]
  by_cases h : m.id = id
  · simp [h]
  · rw [beq_false_of_ne h, if_neg h, find?]

theorem find?_eq_none (h : id ∉ ms.map Message.id) : find? ms id = none := by
  rw [find?, List.find?_eq_none]
  intro m hm heq
  exact h (List.mem_map.2 ⟨m, hm, by simpa using heq⟩)

/-- Where identifiers do not repeat, every message is found under its own. -/
theorem find?_of_mem (h : (ms.map Message.id).Nodup) (hm : m ∈ ms) : find? ms m.id = some m := by
  induction ms with
  | nil => cases hm
  | cons n ms ih =>
    obtain ⟨hn, hms⟩ := List.nodup_cons.1 (List.map_cons ▸ h)
    rw [find?_cons]
    rcases List.mem_cons.1 hm with rfl | hm
    · exact if_pos rfl
    · have hne : n.id ≠ m.id := fun heq ↦ hn (heq ▸ List.mem_map_of_mem hm)
      rw [if_neg hne, ih hms hm]

/-! ## Adding -/

/-- The messages with an empty one of an assistant, unless there is one with that identifier. -/
def ensured (ms : List Message) (id : String) : List Message :=
  if has ms id then ms else ms ++ [{ id, role := .assistant }]

theorem find?_ensured (ms : List Message) (id other : String) :
    find? (ensured ms id) other =
      if other = id then some ((find? ms id).getD { id, role := .assistant })
      else find? ms other := by
  rw [ensured, has_eq_isSome_find?]
  cases hfind : find? ms id with
  | some m =>
    by_cases hother : other = id
    · simp [hother, hfind]
    · simp [hother]
  | none =>
    have happend : find? (ms ++ [{ id, role := .assistant }]) other =
        (find? ms other).or (find? [{ id, role := .assistant }] other) := List.find?_append
    by_cases hother : other = id
    · subst hother
      simp [happend, hfind, find?_cons]
    · have hne : id ≠ other := Ne.symm hother
      simp [hother, hne, find?]

theorem nodup_ensured (h : (ms.map Message.id).Nodup) (id : String) :
    ((ensured ms id).map Message.id).Nodup := by
  rw [ensured]
  split
  · exact h
  · rename_i hhas
    rw [List.map_append, List.nodup_append]
    refine ⟨h, List.nodup_singleton _, fun a ha b hb ↦ ?_⟩
    obtain ⟨m, hm, rfl⟩ := List.mem_map.1 ha
    obtain rfl := List.mem_singleton.1 hb
    intro heq
    exact hhas (List.any_eq_true.2 ⟨m, hm, by simpa using heq⟩)

/-! ## Changing -/

/-- Changing a message that is found, without changing its identifier. -/
theorem exists_modify? {f : Message → Option Message} (h : find? ms id = some m)
    (hf : f m = some m') (hid : m'.id = m.id) :
    ∃ ms', modify? f id ms = some ms' ∧ ms'.map Message.id = ms.map Message.id ∧
      ∀ other, find? ms' other = if other = id then some m' else find? ms other := by
  induction ms with
  | nil => cases h
  | cons n ms ih =>
    rw [find?_cons] at h
    by_cases hn : n.id = id
    · rw [if_pos hn] at h
      obtain rfl := Option.some.inj h
      refine ⟨m' :: ms, by rw [modify?, if_pos hn, hf]; rfl, by rw [List.map_cons, hid]; rfl,
        fun other ↦ ?_⟩
      rw [find?_cons, find?_cons, hid, hn]
      by_cases hother : other = id
      · rw [if_pos hother.symm, if_pos hother]
      · rw [if_neg (Ne.symm hother), if_neg hother, if_neg (Ne.symm hother)]
    · rw [if_neg hn] at h
      obtain ⟨ms', hmodify, hids, hfind⟩ := ih h
      refine ⟨n :: ms', by rw [modify?, if_neg hn, hmodify]; rfl,
        by rw [List.map_cons, hids, List.map_cons], fun other ↦ ?_⟩
      rw [find?_cons, find?_cons, hfind]
      by_cases hother : other = id
      · rw [if_pos hother, if_pos hother, hother, if_neg hn]
      · rw [if_neg hother, if_neg hother]

/-! ## Arguments of tool calls -/

/-- Where one tool call and no other has an identifier, adding arguments to the first that has it
is adding them to all that have it. -/
theorem appendCall?_eq_map {callId : String} (delta : String) {calls : List ToolCall}
    (h : ∃ call ∈ calls, call.id = callId)
    (hunique : calls.Pairwise fun call other ↦ call.id = callId → other.id ≠ callId) :
    appendCall? callId delta calls =
      some (calls.map fun call ↦ if call.id = callId then call.append delta else call) := by
  induction calls with
  | nil =>
    obtain ⟨_, hmem, -⟩ := h
    cases hmem
  | cons call calls ih =>
    obtain ⟨hcall, hrest⟩ := List.pairwise_cons.1 hunique
    rw [appendCall?, List.map_cons]
    by_cases hid : call.id = callId
    · -- the first call that has the identifier is the only one, and the rest stay as they are
      have hsame : calls.map (fun call ↦ if call.id = callId then call.append delta else call) =
          calls := by
        refine (List.map_congr_left fun other hother ↦ ?_).trans (List.map_id _)
        exact if_neg (hcall other hother hid)
      rw [if_pos hid, if_pos hid, hsame]
    · obtain ⟨other, hmem, hother⟩ := h
      rcases List.mem_cons.1 hmem with rfl | hmem
      · exact absurd hother hid
      · rw [if_neg hid, if_neg hid, ih ⟨other, hmem, hother⟩ hrest]
        rfl

end AgentSession.Message
