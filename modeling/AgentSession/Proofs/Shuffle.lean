import Mathlib.Data.List.Basic
/-!
# Shuffles

A shuffle of some lists is what a schedule makes of them that takes, as long as there is one, the
head of a list of its choice. Every schedule is admitted.

What can be told of a shuffle without the schedule is told by `Shuffle.filter_eq`: a property that
at most one of the lists has to do with picks out of the shuffle what it picks out of the lists.
-/

namespace AgentSession

universe u

variable {α : Type u}

/-- A shuffle of some lists. -/
inductive Shuffle : List (List α) → List α → Prop where
  /-- All lists are empty. -/
  | done {lists : List (List α)} (h : ∀ l ∈ lists, l = []) : Shuffle lists []
  /-- The head of one of the lists is taken. -/
  | take {before after : List (List α)} {a : α} {l rest : List α}
    (h : Shuffle (before ++ l :: after) rest) : Shuffle (before ++ (a :: l) :: after) (a :: rest)

namespace Shuffle

variable {lists : List (List α)} {out : List α}

/-- Taking the head of the list at a position. -/
theorem take_at (n : Nat) {a : α} {l rest : List α} (hn : lists[n]? = some (a :: l))
    (h : Shuffle (lists.set n l) rest) : Shuffle lists (a :: rest) := by
  obtain ⟨hlt, hget⟩ := List.getElem?_eq_some_iff.1 hn
  have hlists : lists = lists.take n ++ (a :: l) :: lists.drop (n + 1) := by
    rw [← hget, List.getElem_cons_drop, List.take_append_drop]
  rw [List.set_eq_take_append_cons_drop, if_pos hlt] at h
  rw [hlists]
  exact .take h

theorem perm (h : Shuffle lists out) : out.Perm lists.flatten := by
  induction h with
  | done h => rw [List.flatten_eq_nil_iff.2 h]
  | take h ih =>
    refine (ih.cons _).trans ?_
    simp only [List.flatten_append, List.flatten_cons, List.cons_append]
    exact List.perm_middle.symm

theorem filter_flatten_eq_nil (p : α → Bool) (h : ∀ l ∈ lists, l.filter p = []) :
    lists.flatten.filter p = [] := by
  rw [List.filter_flatten, List.flatten_eq_nil_iff]
  simpa using h

/-- A property that at most one list has to do with picks the same out of the shuffle and out of
the lists. -/
theorem filter_eq (p : α → Bool) (h : Shuffle lists out)
    (hp : lists.Pairwise fun l l' ↦ l.filter p = [] ∨ l'.filter p = []) :
    out.filter p = lists.flatten.filter p := by
  induction h with
  | done h => rw [List.flatten_eq_nil_iff.2 h]
  | @take before after a l rest h ih =>
    obtain ⟨hbefore, hcons, hcross⟩ := List.pairwise_append.1 hp
    obtain ⟨hafter, htail⟩ := List.pairwise_cons.1 hcons
    have hl (h : (a :: l).filter p = []) : l.filter p = [] := by
      rw [List.filter_cons] at h
      split at h
      · cases h
      · exact h
    have hrest : rest.filter p = (before ++ l :: after).flatten.filter p := by
      refine ih (List.pairwise_append.2 ⟨hbefore, List.pairwise_cons.2 ⟨fun l' hl' ↦ ?_, htail⟩,
        fun l₁ h₁ l₂ h₂ ↦ ?_⟩)
      · exact (hafter l' hl').imp_left hl
      · rcases List.mem_cons.1 h₂ with rfl | h₂
        · exact (hcross l₁ h₁ _ List.mem_cons_self).imp_right hl
        · exact hcross l₁ h₁ l₂ (List.mem_cons_of_mem _ h₂)
    by_cases ha : p a
    · -- no other list has to do with the property, so nothing stands before the element
      have hnone : before.flatten.filter p = [] := by
        refine filter_flatten_eq_nil p fun l' hl' ↦ ?_
        refine (hcross l' hl' _ List.mem_cons_self).resolve_right fun hnil ↦ ?_
        rw [List.filter_cons_of_pos ha] at hnil
        cases hnil
      rw [List.filter_cons_of_pos ha, hrest]
      simp only [List.flatten_append, List.flatten_cons, List.filter_append, hnone,
        List.filter_cons_of_pos ha, List.nil_append, List.cons_append]
    · rw [List.filter_cons_of_neg ha, hrest]
      simp only [List.flatten_append, List.flatten_cons, List.filter_append,
        List.filter_cons_of_neg ha]

end Shuffle

end AgentSession
