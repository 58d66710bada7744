import AgentSession.Proofs.Json.FailingPatch
/-!
# Operations on the whole document

An operation at the root puts a document in the place of the whole one (`PatchOp.whole?`). Every
other operation, whether or not it succeeds, changes a document below the root at most: objects stay
objects, arrays stay arrays, and where there is nothing below the root nothing is changed. Which
document a patch leaves is then decided by the last of its operations at the root, as far as being
`null` is concerned (`Patch.Leads.eq_null_iff`).
-/

namespace AgentSession

variable {create : Bool} {doc value : Json}

namespace Json

variable {α : Type} {change : String → Json → Edited α}

theorem isNull_iff : doc.isNull = true ↔ doc = .null := by
  cases doc with
  | null => exact iff_of_true rfl rfl
  | _ => simp [isNull]

theorem isNull_putPart (create : Bool) (segment : String) (part doc : Json) :
    (putPart create segment part doc).isNull = doc.isNull := by
  cases doc with
  | arr items =>
    rw [putPart]
    split
    · rfl
    · rfl
  | _ => rfl

/-- An edit below the root neither makes a document `null` nor makes something else of `null`. -/
theorem isNull_editAt (hchange : Proper change) (create : Bool) (segments : List String)
    (doc : Json) : (doc.editAt create change segments).2.isNull = doc.isNull := by
  rcases segments with _ | ⟨segment, _ | ⟨next, rest⟩⟩
  · rfl
  · exact hchange.isNull segment doc
  · cases henter : enter? create segment doc with
    | none =>
      obtain ⟨refused, hrefused⟩ := editAt_of_enter?_eq_none henter change next rest
      rw [hrefused]
    | some part =>
      rw [editAt_of_enter? henter]
      exact isNull_putPart create segment _ doc

theorem isNull_add {path : Pointer} (hpath : path ≠ .root) (doc value : Json) (create : Bool) :
    (doc.add path value create).2.isNull = doc.isNull := by
  obtain ⟨segments⟩ := path
  cases segments with
  | nil => exact absurd rfl hpath
  | cons segment rest => exact isNull_editAt (proper_addChild value) create _ doc

theorem isNull_replace {path : Pointer} (hpath : path ≠ .root) (doc value : Json) :
    (doc.replace path value).2.isNull = doc.isNull := by
  obtain ⟨segments⟩ := path
  cases segments with
  | nil => exact absurd rfl hpath
  | cons segment rest => exact isNull_editAt (proper_replaceChild value) false _ doc

theorem isNull_remove (path : Pointer) (doc : Json) :
    (doc.remove path).2.isNull = doc.isNull :=
  isNull_editAt proper_removeChild false path.segments doc

end Json

/-! ## Single operations -/

namespace PatchOp

variable {op : PatchOp}

/-- The document that an operation puts in the place of the whole one, if there is one. -/
def whole? (doc : Json) : PatchOp → Option Json
  | .add path value | .replace path value => if path = .root then some value else none
  | .move source path =>
    if path = .root ∧ source ≠ path then (doc.get source).toOption else none
  | .copy source path => if path = .root then (doc.get source).toOption else none
  | .remove _ | .test _ _ => none

/-- An operation that has a document for the place of the whole one puts it there. -/
theorem apply_of_whole? (h : op.whole? doc = some value) : op.apply create doc = ⟨value, none⟩ := by
  have hget {source : Pointer} (hsource : (doc.get source).toOption = some value) :
      doc.get source = .ok value := by
    cases hfound : doc.get source with
    | error e =>
      rw [hfound] at hsource
      cases hsource
    | ok found =>
      rw [hfound] at hsource
      exact congrArg Except.ok (Option.some.inj hsource)
  cases op with
  | add path new =>
    obtain ⟨rfl, ⟨⟩⟩ := Option.ite_none_right_eq_some.1 h
    rfl
  | replace path new =>
    obtain ⟨rfl, ⟨⟩⟩ := Option.ite_none_right_eq_some.1 h
    rfl
  | move source path =>
    obtain ⟨⟨rfl, hne⟩, hsource⟩ := Option.ite_none_right_eq_some.1 h
    obtain ⟨rest, hremove⟩ := Json.exists_remove_iff.2 ⟨hne, hget hsource⟩
    have habove : source.isAbove .root = false := by simp [Pointer.isAbove, Pointer.root]
    rw [apply, if_neg hne, habove, if_neg Bool.false_ne_true, hremove]
    rfl
  | copy source path =>
    obtain ⟨rfl, hsource⟩ := Option.ite_none_right_eq_some.1 h
    rw [apply, hget hsource]
    rfl
  | remove path => cases h
  | test path expected => cases h

theorem Outcome.doc_ofEdit {α : Type} (path : Pointer) (edited : Json.Edited α) :
    (Outcome.ofEdit path edited).doc = edited.2 := by
  obtain ⟨refused | a, doc⟩ := edited
  · rfl
  · rfl

theorem isNull_apply_move {source path : Pointer}
    (h : (PatchOp.move source path).whole? doc = none) :
    ((PatchOp.move source path).apply create doc).doc.isNull = doc.isNull := by
  rw [apply]
  by_cases heq : source = path
  · rw [if_pos heq, Outcome.doc_ofEdit]
  · rw [if_neg heq]
    split
    · rfl
    · have hrest := Json.isNull_remove source doc
      rcases hremove : doc.remove source with ⟨refused | taken, rest⟩
      · rw [hremove] at hrest
        exact hrest
      · rw [hremove] at hrest
        have hpath : path ≠ .root := by
          rintro rfl
          -- what can be removed can be found, so the root would have received it
          obtain ⟨-, hget⟩ := Json.exists_remove_iff.1 ⟨rest, hremove⟩
          rw [whole?, if_pos ⟨rfl, heq⟩, hget] at h
          cases h
        dsimp only
        rw [Outcome.doc_ofEdit, Json.isNull_add hpath]
        exact hrest

/-- Every other operation leaves `null` where there was `null`, and nowhere else. -/
theorem isNull_apply (h : op.whole? doc = none) :
    (op.apply create doc).doc.isNull = doc.isNull := by
  cases op with
  | add path new =>
    have hpath : path ≠ .root := by
      rintro rfl
      cases h
    rw [apply, Outcome.doc_ofEdit, Json.isNull_add hpath]
  | remove path => rw [apply, Outcome.doc_ofEdit, Json.isNull_remove]
  | replace path new =>
    have hpath : path ≠ .root := by
      rintro rfl
      cases h
    rw [apply, Outcome.doc_ofEdit, Json.isNull_replace hpath]
  | move source path => exact isNull_apply_move h
  | copy source path =>
    rw [apply]
    cases hget : doc.get source with
    | error e => rfl
    | ok found =>
      have hpath : path ≠ .root := by
        rintro rfl
        rw [whole?, if_pos rfl, hget] at h
        cases h
      dsimp only
      rw [Outcome.doc_ofEdit, Json.isNull_add hpath]
  | test path expected =>
    rw [apply]
    cases doc.get path with
    | error e => rfl
    | ok found =>
      dsimp only
      split
      · rfl
      · rfl

end PatchOp

/-! ## Patches -/

namespace Patch

variable {ops : List PatchOp} {reached : Json}

/-- The document that was put in the place of the whole one last, if there is one. -/
def whole? (create : Bool) : List PatchOp → Json → Option Json
  | [], _ => none
  | op :: ops, doc => (whole? create ops (op.apply create doc).doc).or (op.whole? doc)

/-- A patch leaves `null` if the last document that it puts in the place of the whole one is `null`,
or if it puts none there and there was `null` before. -/
theorem Leads.eq_null_iff (h : Leads create ops doc reached) :
    reached = .null ↔ (whole? create ops doc).getD doc = .null := by
  induction h with
  | nil doc => exact Iff.rfl
  | @cons op ops doc next reached hop hops ih =>
    rw [ih, whole?, hop]
    dsimp only
    cases whole? create ops next with
    | some later => exact Iff.rfl
    | none =>
      rw [Option.none_or, Option.getD_none]
      cases hwhole : op.whole? doc with
      | some value =>
        have hnext : op.apply create doc = ⟨value, none⟩ := PatchOp.apply_of_whole? hwhole
        rw [hop] at hnext
        cases hnext
        exact Iff.rfl
      | none =>
        have hnext : (op.apply create doc).doc.isNull = doc.isNull := PatchOp.isNull_apply hwhole
        rw [hop] at hnext
        rw [Option.getD_none, ← Json.isNull_iff, ← Json.isNull_iff, ← hnext]

end Patch

end AgentSession
