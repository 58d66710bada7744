import AgentSession.Failure
import AgentSession.Proofs.Json.Edit
/-!
# Patches that fail

A patch is applied in place, one operation after the other, up to the first that fails. This module
says what is then left: the operations before the failing one have been applied, and the failing one
has done nothing, but for one case.

## Moves that lose a document

To move a document is to take it out and to put it in elsewhere. If there is no such place, the
document is already out, and it is not put back (`PatchOp.Loses`). All other operations make one
edit at most, as their last step, and an edit that fails puts everything back as it was
(`Json.editAt_eq_of_error`); so no other operation that fails has an effect:
`PatchOp.apply_error_cases`.
-/

namespace AgentSession

variable {create : Bool} {doc left : Json}

namespace PatchOp

variable {op : PatchOp} {cause : PatchError}

/-- A move takes a document out and has no place to put it in. -/
def Loses (create : Bool) (op : PatchOp) (doc left : Json) : Prop :=
  ∃ source path value cause, op = .move source path ∧ source ≠ path ∧
    source.isAbove path = false ∧ doc.remove source = (.ok value, left) ∧
    (left.add path value create).1 = .error cause

theorem Loses.ne (h : op.Loses create doc left) : left ≠ doc := by
  obtain ⟨source, path, value, cause, -, -, -, hremove, -⟩ := h
  exact Json.remove_ne hremove

theorem Outcome.exists_of_ofEdit {α : Type} {path : Pointer} {edited : Json.Edited α}
    (h : Outcome.ofEdit path edited = ⟨left, some cause⟩) :
    ∃ refused, edited = (.error refused, left) := by
  obtain ⟨refused | a, doc⟩ := edited
  · cases h
    exact ⟨refused, rfl⟩
  · cases h

theorem apply_move_error_cases {source path : Pointer}
    (h : (PatchOp.move source path).apply create doc = ⟨left, some cause⟩) :
    (left = doc ∧ ∀ other, ¬(PatchOp.move source path).Loses create doc other) ∨
      (PatchOp.move source path).Loses create doc left := by
  rw [apply] at h
  by_cases heq : source = path
  · rw [if_pos heq] at h
    obtain ⟨refused, hget⟩ := Outcome.exists_of_ofEdit h
    refine .inl ⟨(Prod.ext_iff.1 hget).2.symm, ?_⟩
    rintro other ⟨_, _, value, refused, ⟨⟩, hne, -⟩
    exact hne heq
  · rw [if_neg heq] at h
    cases habove : source.isAbove path with
    | true =>
      rw [if_pos habove] at h
      cases h
      refine .inl ⟨rfl, ?_⟩
      rintro other ⟨_, _, value, refused, ⟨⟩, -, hbeside, -⟩
      rw [habove] at hbeside
      cases hbeside
    | false =>
      rw [habove, if_neg Bool.false_ne_true] at h
      rcases hremove : doc.remove source with ⟨refused | value, rest⟩
      · rw [hremove] at h
        cases h
        refine .inl ⟨Json.remove_eq_of_error hremove, ?_⟩
        rintro other ⟨_, _, value, refused', ⟨⟩, -, -, hremoved, -⟩
        rw [hremove] at hremoved
        cases hremoved
      · rw [hremove] at h
        obtain ⟨refused, hadd⟩ := Outcome.exists_of_ofEdit h
        -- the document is out, and it stays out since it cannot be put in
        obtain rfl : left = rest := Json.add_eq_of_error hadd
        have hrefused : (left.add path value create).1 = .error refused := by rw [hadd]
        exact .inr ⟨source, path, value, refused, rfl, heq, habove, hremove, hrefused⟩

/-- An operation that fails has done nothing, or is a move that loses a document. -/
theorem apply_error_cases (h : op.apply create doc = ⟨left, some cause⟩) :
    (left = doc ∧ ∀ other, ¬op.Loses create doc other) ∨ op.Loses create doc left := by
  cases op with
  | add path value =>
    obtain ⟨refused, hadd⟩ := Outcome.exists_of_ofEdit h
    exact .inl ⟨Json.add_eq_of_error hadd, nofun⟩
  | remove path =>
    obtain ⟨refused, hremove⟩ := Outcome.exists_of_ofEdit h
    exact .inl ⟨Json.remove_eq_of_error hremove, nofun⟩
  | replace path value =>
    obtain ⟨refused, hreplace⟩ := Outcome.exists_of_ofEdit h
    exact .inl ⟨Json.replace_eq_of_error hreplace, nofun⟩
  | move source path => exact apply_move_error_cases h
  | copy source path =>
    refine .inl ⟨?_, nofun⟩
    rw [apply] at h
    cases hget : doc.get source with
    | error refused =>
      rw [hget] at h
      cases h
      rfl
    | ok value =>
      rw [hget] at h
      obtain ⟨refused, hadd⟩ := Outcome.exists_of_ofEdit h
      exact Json.add_eq_of_error hadd
  | test path value =>
    refine .inl ⟨?_, nofun⟩
    rw [apply] at h
    cases hget : doc.get path with
    | error refused =>
      rw [hget] at h
      cases h
      rfl
    | ok found =>
      rw [hget] at h
      dsimp only at h
      split at h
      · cases h
      · cases h
        rfl

end PatchOp

namespace Patch

variable {op : PatchOp} {ops : List PatchOp} {reached : Json}

/-- Some operations can be applied one after the other, and lead from one document to another. -/
inductive Leads (create : Bool) : List PatchOp → Json → Json → Prop
  | nil (doc : Json) : Leads create [] doc doc
  | cons {op : PatchOp} {ops : List PatchOp} {doc next reached : Json}
      (hop : op.apply create doc = ⟨next, none⟩) (hops : Leads create ops next reached) :
      Leads create (op :: ops) doc reached

theorem applyFrom_eq_none_iff {index : Nat} :
    applyFrom create index doc ops = (reached, none) ↔ Leads create ops doc reached := by
  induction ops generalizing index doc with
  | nil =>
    constructor
    · rintro ⟨⟩
      exact .nil _
    · rintro ⟨⟩
      rfl
  | cons op ops ih =>
    rw [applyFrom]
    rcases hop : op.apply create doc with ⟨next, _ | cause⟩
    · refine ih.trans ⟨.cons hop, ?_⟩
      rintro (_ | ⟨hnext, hops⟩)
      rw [hop] at hnext
      cases hnext
      exact hops
    · refine ⟨nofun, ?_⟩
      rintro (_ | ⟨hnext, -⟩)
      rw [hop] at hnext
      cases hnext

/-- A patch that fails was applied up to one of its operations, which failed. -/
theorem applyFrom_eq_some {index : Nat} {failure : PatchFailure}
    (h : applyFrom create index doc ops = (left, some failure)) :
    ∃ before op after reached, ops = before ++ op :: after ∧ Leads create before doc reached ∧
      op.apply create reached = ⟨left, some failure.cause⟩ ∧
      failure.index = index + before.length ∧ failure.op = op := by
  induction ops generalizing index doc with
  | nil => cases h
  | cons op ops ih =>
    rw [applyFrom] at h
    rcases hop : op.apply create doc with ⟨next, _ | cause⟩
    · rw [hop] at h
      obtain ⟨before, failing, after, reached, rfl, hbefore, hfails, hindex, hfailing⟩ := ih h
      refine ⟨op :: before, failing, after, reached, rfl, .cons hop hbefore, hfails, ?_, hfailing⟩
      rw [hindex, List.length_cons]
      omega
    · rw [hop] at h
      cases h
      exact ⟨[], op, ops, doc, rfl, .nil doc, hop, rfl, rfl⟩

/-- **Patches that fail.** If a patch fails, the operations before some position can be applied in
order, and the one at that position fails on their result. The failure tells the position, in its
wording too. What is left is the result of the operations before, unless the failing one is a move
that loses a document: then it is never that, but what the removal left. -/
theorem apply_eq_some (create : Bool) (ops : List PatchOp) (doc : Json) {left : Json}
    {failure : PatchFailure} (h : apply create ops doc = (left, some failure)) :
    ∃ before op after reached, ops = before ++ op :: after ∧ Leads create before doc reached ∧
      apply create before doc = (reached, none) ∧
      op.apply create reached = ⟨left, some failure.cause⟩ ∧
      failure.index = before.length ∧ failure.op = op ∧
      Failure.ofPatch failure =
        .validation s!"operation {before.length} ({op.name}): {failure.cause.message}" ∧
      ((left = reached ∧ ∀ other, ¬op.Loses create reached other) ∨
        (op.Loses create reached left ∧ left ≠ reached)) := by
  obtain ⟨before, op, after, reached, hops, hbefore, hfails, hindex, rfl⟩ := applyFrom_eq_some h
  have hposition : failure.index = before.length := hindex.trans (Nat.zero_add _)
  have happlied : apply create before doc = (reached, none) := applyFrom_eq_none_iff.2 hbefore
  refine ⟨before, failure.op, after, reached, hops, hbefore, happlied, hfails, hposition, rfl,
    ?_, ?_⟩
  · rw [Failure.ofPatch, PatchFailure.message, hposition]
  · rcases PatchOp.apply_error_cases hfails with hnothing | hloses
    · exact .inl hnothing
    · exact .inr ⟨hloses, hloses.ne⟩

/-- The second of three operations has nothing to remove. What is left is what the first one led
to. -/
theorem apply_eq_some_nothing :
    let doc : Json := .obj [("a", .int 1), ("b", .arr [])]
    let reached : Json := .obj [("a", .int 1), ("b", .arr [.int 1])]
    let first : PatchOp := .copy ⟨["a"]⟩ ⟨["b", "-"]⟩
    let failure : PatchFailure := ⟨1, .remove ⟨["c"]⟩, .at ⟨["c"]⟩ .notFound⟩
    apply false [first, .remove ⟨["c"]⟩, .remove ⟨["a"]⟩] doc = (reached, some failure) ∧
      Leads false [first] doc reached := by
  intro doc reached first failure
  have hfails : apply false [first, .remove ⟨["c"]⟩, .remove ⟨["a"]⟩] doc =
      (reached, some failure) := by decide
  refine ⟨hfails, ?_⟩
  obtain ⟨before, op, after, mid, hops, hbefore, -, -, hposition, hop, -, hleft⟩ :=
    apply_eq_some false _ doc hfails
  have hfirst : before = [first] := by
    have htake := congrArg (List.take 1) hops
    rw [show 1 = before.length from hposition, List.take_left] at htake
    rw [← htake, ← hposition]
    rfl
  rcases hleft with ⟨rfl, -⟩ | ⟨⟨_, _, _, _, hmove, -⟩, -⟩
  · exact hfirst ▸ hbefore
  · rw [← hop] at hmove
    cases hmove

/-- A document is taken out of an object and has no place in an array. The patch fails at its first
operation, and what is left is not the document that it was applied to. -/
theorem apply_eq_some_lost :
    let doc : Json := .obj [("a", .int 1), ("b", .arr [])]
    let op : PatchOp := .move ⟨["a"]⟩ ⟨["b", "5"]⟩
    let failure : PatchFailure := ⟨0, op, .at ⟨["b", "5"]⟩ (.outOfBounds "5" 0)⟩
    apply false [op] doc = (.obj [("b", .arr [])], some failure) ∧
      ¬∃ before failing after, [op] = before ++ failing :: after ∧
        failure.index = before.length ∧ Leads false before doc (.obj [("b", .arr [])]) := by
  intro doc op failure
  refine ⟨by decide, ?_⟩
  rintro ⟨before, failing, after, -, hposition, hbefore⟩
  obtain rfl : before = [] := List.eq_nil_of_length_eq_zero hposition.symm
  have hnothing : apply false [] doc = (.obj [("b", .arr [])], none) :=
    applyFrom_eq_none_iff.2 hbefore
  revert hnothing
  decide

end Patch

end AgentSession
