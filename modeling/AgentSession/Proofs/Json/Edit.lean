import AgentSession.Json.Edit
import AgentSession.Proofs.Dict
/-!
# Walks into a document

A pointer is followed, and an edit is made at a pointer, by entering one part of a container after
the other. `Json.enter?` is one such step and `Json.putPart` puts a changed part back in its place;
the walks of `Json.follow` and `Json.editAt` are made of these (`Json.follow_cons_ok_iff`,
`Json.editAt_of_enter?`), so that what is shown of a step carries over to walks by induction on the
segments.

## Edits that fail

Since a walk changes the document as it goes, an edit that fails could leave something behind. It
does not (`Json.editAt_eq_of_error`). The container at its end is changed only once nothing can fail
any more (`Json.Proper`). On the way nothing is changed, except that a member may be created, and a
walk that has created one goes through empty objects from there on, where nothing fails. So in a
walk that fails every part is put back as it was.

## Removals

A document can be removed exactly where a pointer without the root leads to one
(`Json.exists_remove_iff`), and what is left is another document (`Json.remove_ne`).
-/

namespace AgentSession.Json

variable {α : Type} {create : Bool} {change : String → Json → Edited α}
  {doc part value left : Json} {segment next last : String} {rest segments : List String}
  {refused : PathError}

/-! ## Steps -/

theorem get?_membersFor (create : Bool) (key : String) (members : Dict Json) :
    (membersFor create key members).get? key =
      (members.get? key).or (if create then some empty else none) := by
  cases create with
  | false => exact Option.or_none.symm
  | true => exact Dict.get?_ensure_self members key empty

/-- A member that is there is not created. -/
theorem membersFor_eq_self {members : Dict Json} (h : Dict.get? members segment = some part)
    (create : Bool) : membersFor create segment members = members := by
  rw [membersFor]
  split
  · exact Dict.ensure_eq_self (by rw [Dict.has, h, Option.isSome_some]) empty
  · rfl

/-- The part of a container that a segment leads to. With `create`, a member that is missing is
entered as an empty object. -/
def enter? (create : Bool) (segment : String) : Json → Option Json
  | .obj members => Dict.get? (membersFor create segment members) segment
  | .arr items =>
    match Pointer.index segment items.length false with
    | .error _ => none
    | .ok i => items[i]?
  | .null | .bool _ | .num _ | .str _ => none

/-- The container with another part in the place that a segment leads to. -/
def putPart (create : Bool) (segment : String) (part : Json) : Json → Json
  | .obj members => .obj (Dict.replace (membersFor create segment members) segment part)
  | .arr items =>
    match Pointer.index segment items.length false with
    | .error _ => .arr items
    | .ok i => .arr (items.set i part)
  | doc => doc

/-- A part is entered that is there, or an empty object that is created. -/
theorem enter?_eq_some_cases (h : enter? create segment doc = some part) :
    enter? false segment doc = some part ∨ (create = true ∧ part = empty) := by
  cases create with
  | false => exact .inl h
  | true =>
    cases doc with
    | obj members =>
      rw [enter?, get?_membersFor] at h
      rw [enter?, membersFor, if_neg Bool.false_ne_true]
      cases hmember : Dict.get? members segment with
      | none =>
        rw [hmember] at h
        exact .inr ⟨rfl, (Option.some.inj h).symm⟩
      | some child =>
        rw [hmember] at h
        exact .inl h
    | _ => exact .inl h

/-- To put a part in its own place changes nothing. -/
theorem putPart_eq_self (h : enter? false segment doc = some part) :
    putPart create segment part doc = doc := by
  cases doc with
  | obj members =>
    have hpart : Dict.get? members segment = some part := h
    rw [putPart, membersFor_eq_self hpart, Dict.replace_eq_self hpart]
  | arr items =>
    rw [enter?] at h
    rw [putPart]
    cases hindex : Pointer.index segment items.length false with
    | error e => rfl
    | ok i =>
      rw [hindex] at h
      obtain ⟨hi, hitem⟩ := List.getElem?_eq_some_iff.1 h
      dsimp only
      rw [← hitem, List.set_getElem_self]
  | _ => rfl

theorem enter?_putPart {part' : Json} (h : enter? false segment doc = some part) :
    enter? false segment (putPart create segment part' doc) = some part' := by
  cases doc with
  | obj members =>
    have hpart : Dict.get? members segment = some part := h
    have hhas : Dict.has (membersFor create segment members) segment = true := by
      rw [Dict.has, get?_membersFor, hpart, Option.some_or, Option.isSome_some]
    exact Dict.get?_replace_self hhas part'
  | arr items =>
    rw [enter?] at h
    rw [putPart]
    cases hindex : Pointer.index segment items.length false with
    | error e =>
      rw [hindex] at h
      cases h
    | ok i =>
      rw [hindex] at h
      have hlt : i < items.length := (List.getElem?_eq_some_iff.1 h).1
      dsimp only
      rw [enter?, List.length_set, hindex]
      exact List.getElem?_set_self hlt
  | _ => cases h

/-! ## Walks -/

theorem follow_cons_ok_iff :
    doc.follow (segment :: rest) = .ok value ↔
      ∃ part, enter? false segment doc = some part ∧ part.follow rest = .ok value := by
  cases doc with
  | obj members =>
    have henter : enter? false segment (.obj members) = Dict.get? members segment := rfl
    rw [follow, henter]
    cases Dict.get? members segment with
    | none => simp
    | some child => simp
  | arr items =>
    rw [follow, enter?]
    cases Pointer.index segment items.length false with
    | error e => simp
    | ok i =>
      dsimp only
      cases items[i]? with
      | none => simp
      | some child => simp
  | _ => simp [follow, enter?]

/-- A walk through a part does what the walk in the part does, and puts the part back. -/
theorem editAt_of_enter? (h : enter? create segment doc = some part) :
    doc.editAt create change (segment :: next :: rest) =
      ((part.editAt create change (next :: rest)).1,
        putPart create segment (part.editAt create change (next :: rest)).2 doc) := by
  cases doc with
  | obj members =>
    rw [enter?] at h
    rw [editAt, h]
    rfl
  | arr items =>
    rw [enter?] at h
    rw [editAt, putPart]
    cases hindex : Pointer.index segment items.length false with
    | error e =>
      rw [hindex] at h
      cases h
    | ok i =>
      rw [hindex] at h
      change items[i]? = some part at h
      dsimp only
      rw [h]
  | _ => cases h

/-- Where there is no part to enter, a walk fails at once. -/
theorem editAt_of_enter?_eq_none (h : enter? create segment doc = none)
    (change : String → Json → Edited α) (next : String) (rest : List String) :
    ∃ refused, doc.editAt create change (segment :: next :: rest) = (.error refused, doc) := by
  cases doc with
  | obj members =>
    have hcreate : create = false := by
      rw [enter?, get?_membersFor] at h
      cases create with
      | false => rfl
      | true =>
        rw [if_pos rfl] at h
        cases hmember : Dict.get? members segment with
        | none =>
          rw [hmember] at h
          cases h
        | some child =>
          rw [hmember] at h
          cases h
    rw [enter?] at h
    rw [editAt, h, hcreate]
    exact ⟨.notFound, rfl⟩
  | arr items =>
    rw [enter?] at h
    rw [editAt]
    cases hindex : Pointer.index segment items.length false with
    | error e => exact ⟨e, rfl⟩
    | ok i =>
      rw [hindex] at h
      change items[i]? = none at h
      dsimp only
      rw [h]
      exact ⟨.notFound, rfl⟩
  | _ => exact ⟨.throughScalar, rfl⟩

theorem editAt_cons_ok_iff {a : α} {changed : Json} :
    doc.editAt create change (segment :: next :: rest) = (.ok a, changed) ↔
      ∃ part part', enter? create segment doc = some part ∧
        part.editAt create change (next :: rest) = (.ok a, part') ∧
        putPart create segment part' doc = changed := by
  cases henter : enter? create segment doc with
  | none =>
    obtain ⟨refused, hrefused⟩ := editAt_of_enter?_eq_none henter change next rest
    simp [hrefused]
  | some part =>
    rw [editAt_of_enter? henter, Prod.mk.injEq]
    constructor
    · rintro ⟨ha, hchanged⟩
      exact ⟨part, _, rfl, Prod.ext ha rfl, hchanged⟩
    · rintro ⟨_, part', ⟨⟩, hpart, hchanged⟩
      rw [hpart]
      exact ⟨rfl, hchanged⟩

/-! ## Changes of a container -/

/-- A change does nothing where it fails, and otherwise neither makes a document `null` nor makes
something else of `null`. -/
def Proper (change : String → Json → Edited α) : Prop :=
  ∀ last doc, (∃ refused, change last doc = (.error refused, doc)) ∨
    ∃ a changed, change last doc = (.ok a, changed) ∧ changed.isNull = doc.isNull

theorem Proper.eq_of_error (hchange : Proper change)
    (h : change last doc = (.error refused, left)) : left = doc := by
  rcases hchange last doc with ⟨e, he⟩ | ⟨a, changed, hok, -⟩
  · exact (Prod.ext_iff.1 (h.symm.trans he)).2
  · rw [hok] at h
    cases h

theorem Proper.isNull (hchange : Proper change) (last : String) (doc : Json) :
    (change last doc).2.isNull = doc.isNull := by
  rcases hchange last doc with ⟨e, he⟩ | ⟨a, changed, hok, hnull⟩
  · rw [he]
  · rw [hok]
    exact hnull

theorem proper_addChild (value : Json) : Proper (addChild value) := by
  intro last doc
  cases doc with
  | obj members => exact .inr ⟨(), _, rfl, rfl⟩
  | arr items =>
    rw [addChild]
    cases Pointer.index last items.length true with
    | error e => exact .inl ⟨e, rfl⟩
    | ok i => exact .inr ⟨(), _, rfl, rfl⟩
  | _ => exact .inl ⟨_, rfl⟩

theorem proper_removeChild : Proper removeChild := by
  intro last doc
  cases doc with
  | obj members =>
    rw [removeChild]
    cases Dict.get? members last with
    | none => exact .inl ⟨_, rfl⟩
    | some child => exact .inr ⟨child, _, rfl, rfl⟩
  | arr items =>
    rw [removeChild]
    cases Pointer.index last items.length false with
    | error e => exact .inl ⟨e, rfl⟩
    | ok i =>
      dsimp only
      cases items[i]? with
      | none => exact .inl ⟨_, rfl⟩
      | some child => exact .inr ⟨child, _, rfl, rfl⟩
  | _ => exact .inl ⟨_, rfl⟩

theorem proper_replaceChild (value : Json) : Proper (replaceChild value) := by
  intro last doc
  cases doc with
  | obj members =>
    rw [replaceChild]
    cases Dict.has members last with
    | false => exact .inl ⟨_, rfl⟩
    | true => exact .inr ⟨(), _, rfl, rfl⟩
  | arr items =>
    rw [replaceChild]
    cases Pointer.index last items.length false with
    | error e => exact .inl ⟨e, rfl⟩
    | ok i => exact .inr ⟨(), _, rfl, rfl⟩
  | _ => exact .inl ⟨_, rfl⟩

/-! ## Edits that fail -/

/-- If the change cannot fail in an empty object, neither can a walk that begins in one. -/
theorem exists_editAt_empty
    (hchange : ∀ last, ∃ a changed, change last empty = (.ok a, changed))
    (segment : String) (rest : List String) :
    ∃ a changed, empty.editAt true change (segment :: rest) = (.ok a, changed) := by
  induction rest generalizing segment with
  | nil => exact hchange segment
  | cons next rest ih =>
    obtain ⟨a, part', hpart⟩ := ih next
    have henter : enter? true segment empty = some empty := get?_membersFor true segment []
    exact ⟨a, _, editAt_cons_ok_iff.2 ⟨empty, part', henter, hpart, rfl⟩⟩

/-- **Failing edits.** An edit that fails leaves the document as it was, if members are created on
the way only for a change that cannot fail in an empty object. -/
theorem editAt_eq_of_error (hchange : Proper change)
    (hcreate : create = true → ∀ last, ∃ a changed, change last empty = (.ok a, changed))
    (h : doc.editAt create change segments = (.error refused, left)) : left = doc := by
  cases segments with
  | nil => exact (Prod.ext_iff.1 h).2.symm
  | cons segment rest =>
    induction rest generalizing segment doc left with
    | nil => exact hchange.eq_of_error h
    | cons next rest ih =>
      cases henter : enter? create segment doc with
      | none =>
        obtain ⟨e, he⟩ := editAt_of_enter?_eq_none henter change next rest
        exact (Prod.ext_iff.1 (he.symm.trans h)).2.symm
      | some part =>
        rw [editAt_of_enter? henter, Prod.mk.injEq] at h
        obtain ⟨hrefused, rfl⟩ := h
        have hpart : (part.editAt create change (next :: rest)).2 = part :=
          ih next (Prod.ext hrefused rfl)
        rw [hpart]
        rcases enter?_eq_some_cases henter with hthere | ⟨rfl, rfl⟩
        · exact putPart_eq_self hthere
        · -- the part was created, and from there on nothing fails
          obtain ⟨a, changed, hok⟩ := exists_editAt_empty (hcreate rfl) next rest
          rw [hok] at hrefused
          cases hrefused

theorem add_eq_of_error {p : Pointer} (h : doc.add p value create = (.error refused, left)) :
    left = doc := by
  obtain ⟨segments⟩ := p
  cases segments with
  | nil => cases h
  | cons segment rest =>
    exact editAt_eq_of_error (proper_addChild value) (fun _ _ ↦ ⟨(), _, rfl⟩) h

theorem remove_eq_of_error {p : Pointer} (h : doc.remove p = (.error refused, left)) :
    left = doc := by
  refine editAt_eq_of_error proper_removeChild (fun hcreate ↦ ?_) h
  cases hcreate

theorem replace_eq_of_error {p : Pointer} (h : doc.replace p value = (.error refused, left)) :
    left = doc := by
  obtain ⟨segments⟩ := p
  cases segments with
  | nil => cases h
  | cons segment rest =>
    refine editAt_eq_of_error (proper_replaceChild value) (fun hcreate ↦ ?_) h
    cases hcreate

/-! ## Removals -/

theorem removeChild_ok_iff :
    (∃ left, removeChild last doc = (.ok value, left)) ↔ enter? false last doc = some value := by
  cases doc with
  | obj members =>
    have henter : enter? false last (.obj members) = Dict.get? members last := rfl
    rw [removeChild, henter]
    cases Dict.get? members last with
    | none => simp
    | some child => simp
  | arr items =>
    rw [removeChild, enter?]
    cases Pointer.index last items.length false with
    | error e => simp
    | ok i =>
      dsimp only
      cases items[i]? with
      | none => simp
      | some child => simp
  | _ => simp [removeChild, enter?]

theorem exists_editAt_removeChild_iff :
    (∃ left, doc.editAt false removeChild (segment :: rest) = (.ok value, left)) ↔
      doc.follow (segment :: rest) = .ok value := by
  rw [follow_cons_ok_iff]
  induction rest generalizing segment doc with
  | nil =>
    have hlast : doc.editAt false removeChild [segment] = removeChild segment doc := rfl
    rw [hlast, removeChild_ok_iff]
    simp [follow]
  | cons next rest ih =>
    constructor
    · rintro ⟨left, hleft⟩
      obtain ⟨part, part', henter, hpart, -⟩ := editAt_cons_ok_iff.1 hleft
      exact ⟨part, henter, follow_cons_ok_iff.2 (ih.1 ⟨part', hpart⟩)⟩
    · rintro ⟨part, henter, hfollow⟩
      obtain ⟨part', hpart⟩ := ih.2 (follow_cons_ok_iff.1 hfollow)
      exact ⟨_, editAt_cons_ok_iff.2 ⟨part, part', henter, hpart, rfl⟩⟩

/-- A document can be removed where a pointer leads to it, unless it is the whole document. -/
theorem exists_remove_iff {p : Pointer} :
    (∃ left, doc.remove p = (.ok value, left)) ↔ p ≠ .root ∧ doc.get p = .ok value := by
  obtain ⟨segments⟩ := p
  cases segments with
  | nil => simp [remove, editAt, Pointer.root]
  | cons segment rest =>
    have hroot : (⟨segment :: rest⟩ : Pointer) ≠ .root := by simp [Pointer.root]
    rw [remove, get, exists_editAt_removeChild_iff]
    simp [hroot]

theorem putPart_ne {part' : Json} (h : enter? false segment doc = some part) (hne : part' ≠ part) :
    putPart create segment part' doc ≠ doc := by
  intro heq
  have hsame : enter? false segment (putPart create segment part' doc) = some part' :=
    enter?_putPart h
  rw [heq, h] at hsame
  exact hne (Option.some.inj hsame).symm

theorem removeChild_ne (h : removeChild last doc = (.ok value, left)) : left ≠ doc := by
  have hpart : enter? false last doc = some value := removeChild_ok_iff.1 ⟨left, h⟩
  cases doc with
  | obj members =>
    have hchild : Dict.get? members last = some value := hpart
    have hleft : left = .obj (Dict.erase members last) := by
      rw [removeChild, hchild] at h
      cases h
      rfl
    have hlength := Dict.length_erase hchild
    intro heq
    rw [hleft] at heq
    have hmembers : Dict.erase members last = members := Json.obj.inj heq
    rw [hmembers] at hlength
    omega
  | arr items =>
    rw [removeChild] at h
    rw [enter?] at hpart
    cases hindex : Pointer.index last items.length false with
    | error e =>
      rw [hindex] at h
      cases h
    | ok i =>
      rw [hindex] at h hpart
      change items[i]? = some value at hpart
      have hlt : i < items.length := (List.getElem?_eq_some_iff.1 hpart).1
      have hleft : left = .arr (items.eraseIdx i) := by
        dsimp only at h
        rw [hpart] at h
        cases h
        rfl
      have hlength := List.length_eraseIdx_of_lt hlt
      intro heq
      rw [hleft] at heq
      have hitems : items.eraseIdx i = items := Json.arr.inj heq
      rw [hitems] at hlength
      omega
  | _ => cases h

/-- An edit that changes every container leaves another document. -/
theorem editAt_ne {a : α} {changed : Json}
    (hchange : ∀ last doc a changed, change last doc = (.ok a, changed) → changed ≠ doc)
    (h : doc.editAt false change segments = (.ok a, changed)) : changed ≠ doc := by
  cases segments with
  | nil => cases h
  | cons segment rest =>
    induction rest generalizing segment doc changed with
    | nil => exact hchange segment doc a changed h
    | cons next rest ih =>
      obtain ⟨part, part', henter, hpart, rfl⟩ := editAt_cons_ok_iff.1 h
      exact putPart_ne henter (ih next hpart)

theorem remove_ne {p : Pointer} (h : doc.remove p = (.ok value, left)) : left ≠ doc :=
  editAt_ne (fun _ _ _ _ ↦ removeChild_ne) h

end AgentSession.Json
