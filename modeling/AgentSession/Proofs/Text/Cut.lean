import AgentSession.Text.Cut
import Mathlib.Data.List.TakeWhile
/-!
# Cuts at a character

The pieces of a text are those of `List.splitOn` (`Text.splitAll_eq_splitOn`), so they hold no
separator and joining them gives the text back. Here they are also told from the front: a separator
ends an empty piece, and any other character comes before the first piece of what follows it.
-/

namespace AgentSession.Text

theorem notMem_of_mem_splitOn {α : Type} [BEq α] [LawfulBEq α] {sep : α} {l part : List α}
    (h : part ∈ l.splitOn sep) : sep ∉ part := by
  induction l generalizing part with
  | nil =>
    obtain rfl := List.mem_singleton.1 h
    exact List.not_mem_nil
  | cons a l ih =>
    obtain ⟨first, parts, hparts⟩ := List.exists_cons_of_ne_nil (List.splitOn_ne_nil sep l)
    rw [List.splitOn_cons_eq_if_modifyHead] at h
    rw [hparts] at h ih
    split at h
    · rcases List.mem_cons.1 h with rfl | h
      · exact List.not_mem_nil
      · exact ih h
    · rename_i hne
      rcases List.mem_cons.1 h with rfl | h
      · exact List.not_mem_cons_of_ne_of_not_mem (Ne.symm (by simpa using hne))
          (ih (List.mem_cons_self ..))
      · exact ih (List.mem_cons_of_mem _ h)

variable {sep : Char} {text piece : List Char} {pieces : List (List Char)}

theorem splitAll_cons_self (sep : Char) (text : List Char) :
    splitAll sep (sep :: text) = [] :: splitAll sep text := by
  rw [splitAll, if_pos rfl]

theorem splitAll_cons_of_ne {c : Char} (hc : c ≠ sep) (h : splitAll sep text = piece :: pieces) :
    splitAll sep (c :: text) = (c :: piece) :: pieces := by
  rw [splitAll, if_neg hc, h]

theorem splitAll_eq_splitOn (sep : Char) (text : List Char) :
    splitAll sep text = text.splitOn sep := by
  induction text with
  | nil => rfl
  | cons c text ih =>
    rw [List.splitOn_cons_eq_if_modifyHead]
    by_cases hc : c = sep
    · rw [hc, splitAll_cons_self, ih, if_pos (beq_self_eq_true sep)]
    · obtain ⟨piece, pieces, hpieces⟩ := List.exists_cons_of_ne_nil (List.splitOn_ne_nil sep text)
      rw [hpieces] at ih ⊢
      rw [splitAll_cons_of_ne hc ih, if_neg (by simpa using hc)]
      rfl

theorem exists_splitAll (sep : Char) (text : List Char) :
    ∃ piece pieces, splitAll sep text = piece :: pieces := by
  rw [splitAll_eq_splitOn]
  exact List.exists_cons_of_ne_nil (List.splitOn_ne_nil sep text)

/-- The first piece begins as the text does, unless the text begins with the separator. -/
theorem head?_splitAll (h : splitAll sep text = piece :: pieces) :
    piece.head? = text.head?.filter (· ≠ sep) := by
  cases text with
  | nil =>
    obtain ⟨rfl, -⟩ := List.cons.inj h
    rfl
  | cons c text =>
    by_cases hc : c = sep
    · rw [hc, splitAll_cons_self] at h
      obtain ⟨rfl, -⟩ := List.cons.inj h
      exact (Option.filter_some_neg (by simpa using hc)).symm
    · obtain ⟨piece', pieces', hpieces⟩ := exists_splitAll sep text
      rw [splitAll_cons_of_ne hc hpieces] at h
      obtain ⟨rfl, -⟩ := List.cons.inj h
      exact (Option.filter_some_pos (by simpa using hc)).symm

/-- The first separator of a text is the one that has none before it. -/
theorem splitFirst_eq_some_iff {before after : List Char} :
    splitFirst sep text = some (before, after) ↔ text = before ++ sep :: after ∧ sep ∉ before := by
  induction text generalizing before with
  | nil =>
    constructor
    · nofun
    · rintro ⟨htext, -⟩
      exact absurd htext.symm (by simp)
  | cons c text ih =>
    rw [splitFirst]
    by_cases hc : c = sep
    · rw [if_pos hc]
      constructor
      · intro h
        obtain ⟨rfl, rfl⟩ := Prod.mk.inj (Option.some.inj h)
        exact ⟨congrArg (· :: text) hc, List.not_mem_nil⟩
      · rintro ⟨htext, hsep⟩
        rcases before with _ | ⟨d, before⟩
        · rw [(List.cons.inj htext).2]
        · obtain rfl : c = d := (List.cons.inj htext).1
          exact absurd (hc ▸ List.mem_cons_self) hsep
    · rw [if_neg hc]
      constructor
      · intro h
        obtain ⟨⟨before', after'⟩, hrest, heq⟩ := Option.map_eq_some_iff.1 h
        obtain ⟨rfl, rfl⟩ := Prod.mk.inj heq
        obtain ⟨rfl, hsep⟩ := ih.1 hrest
        exact ⟨rfl, fun hmem ↦ (List.mem_cons.1 hmem).elim (fun heq ↦ hc heq.symm) hsep⟩
      · rintro ⟨htext, hsep⟩
        rcases before with _ | ⟨d, before⟩
        · exact absurd (List.cons.inj htext).1 hc
        · obtain ⟨rfl, rfl⟩ := List.cons.inj htext
          rw [ih.2 ⟨rfl, fun hmem ↦ hsep (List.mem_cons_of_mem c hmem)⟩]
          rfl

end AgentSession.Text
