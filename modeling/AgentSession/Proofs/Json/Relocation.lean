import AgentSession.Proofs.Json.Creation
import AgentSession.Proofs.Json.FailingPatch
import AgentSession.Proofs.Json.Interchange
/-!
# Copying and moving

A copy is looked up and then added elsewhere, so after it the place it was made for holds what the
other one held (`Json.get_add`). To move a document is to remove it and then to add it. It differs
from copying it and removing the original in the order of the two edits: its destination is looked
for in a document from which something is missing already. Where the two places lie apart and are
members of objects, this makes no difference (`Json.exists_remove_add_iff`).

A move to the same place only asks whether there is anything, and a move to a place below is
refused. Together, `PatchOp.copy_move` says what these two operations do.
-/

namespace AgentSession

theorem Pointer.Apart.ne {p q : Pointer} (h : p.Apart q) : p ≠ q := by
  rintro rfl
  exact h.1 List.prefix_rfl

theorem Pointer.Apart.ne_root {p q : Pointer} (h : p.Apart q) : q ≠ .root := by
  rintro rfl
  exact h.2 List.nil_prefix

theorem Pointer.isAbove_iff {p q : Pointer} :
    p.isAbove q = true ↔ p.segments <+: q.segments ∧ p ≠ q := by
  rw [isAbove, Bool.and_eq_true, decide_eq_true_iff, List.isPrefixOf_iff_prefix]
  constructor
  · rintro ⟨hlength, hfront⟩
    refine ⟨hfront, ?_⟩
    rintro rfl
    exact Nat.lt_irrefl _ hlength
  · rintro ⟨hfront, hne⟩
    refine ⟨Nat.lt_of_le_of_ne hfront.length_le fun hlength ↦ hne ?_, hfront⟩
    exact congrArg Pointer.mk (hfront.eq_of_length hlength)

namespace Json

variable {create : Bool} {doc object value left : Json} {last : String} {container p : Pointer}

/-! ## What was added is found -/

/-- What was added to a container is found there, unless it was appended to an array. -/
theorem enter?_addChild (h : addChild value last object = (.ok (), left)) :
    enter? false last left = some value ∨
      last = "-" ∧ ∃ items, object = .arr items ∧ left = .arr (items ++ [value]) := by
  cases object with
  | obj members =>
    obtain ⟨-, rfl⟩ := Prod.mk.inj h
    exact .inl (Dict.get?_insert_self members last value)
  | arr items =>
    by_cases hdash : last = "-"
    · subst hdash
      rw [addChild_dash] at h
      exact .inr ⟨rfl, items, rfl, (Prod.mk.inj h).2.symm⟩
    · left
      rw [addChild] at h
      cases hindex : Pointer.index last items.length true with
      | error e =>
        rw [hindex] at h
        cases h
      | ok i =>
        rw [hindex] at h
        obtain ⟨-, rfl⟩ := Prod.mk.inj h
        have hle : i ≤ items.length := Pointer.index_le hindex
        have hitem : Pointer.index last (items.insertIdx i value).length false = .ok i := by
          rw [List.length_insertIdx_of_le_length hle value]
          exact Pointer.index_item_of_place hindex hdash
        rw [enter?, hitem]
        dsimp only
        rw [List.getElem?_insertIdx_self, if_pos hle]
  | _ => cases h

/-- What was added at a pointer is found at it, or at the end of the array that it was appended
to. -/
theorem get_add (h : doc.add p value create = (.ok (), left)) :
    left.get p = .ok value ∨
      ∃ container items, p = Pointer.part container "-" ∧ doc.get container = .ok (.arr items) ∧
        left.get container = .ok (.arr (items ++ [value])) := by
  by_cases hroot : p = .root
  · subst hroot
    obtain ⟨-, rfl⟩ := Prod.mk.inj h
    exact .inl rfl
  · obtain ⟨container, last, rfl⟩ := Pointer.exists_part_iff.2 hroot
    rw [add_part] at h
    have hcreated : doc.editAt false (addChild value) (container.segments ++ [last]) =
        (.ok (), left) ∨ left.get (container.part last) = .ok value := by
      cases create with
      | false => exact .inl h
      | true =>
        rcases editAt_true_cases h with hwithout | ⟨front, key, rest, members, hp, hfront, -, rfl⟩
        · exact .inl hwithout
        · right
          rw [get, Pointer.part, hp, List.append_assoc,
            follow_append_of_follow (follow_put hfront _)]
          refine follow_cons_ok_iff.2 ⟨_, Dict.get?_insert_self members key _, ?_⟩
          exact follow_chain _ _
    rcases hcreated with hwithout | hfound
    · obtain ⟨object, object', hobject, hadd, rfl⟩ := editAt_ok_iff.1 hwithout
      rcases enter?_addChild hadd with henter | ⟨rfl, items, rfl, rfl⟩
      · left
        rw [get, Pointer.part, follow_append_of_follow (follow_put hobject _)]
        exact follow_singleton_eq_ok_iff.2 henter
      · exact .inr ⟨container, items, rfl, hobject, follow_put hobject _⟩
    · exact .inl hfound

/-! ## Removing and adding in either order -/

theorem add_eq_editAt (h : p ≠ .root) :
    doc.add p value create = doc.editAt create (addChild value) p.segments := by
  obtain ⟨container, last, rfl⟩ := Pointer.exists_part_iff.2 h
  exact add_part doc container last value create

/-- A member can be removed and then another one added if this can be done the other way round, and
what is left is the same. -/
theorem exists_remove_add_iff {source path : Pointer} {taken : Json} (hdoc : doc.Ordered)
    (hapart : source.Apart path) (hsource : doc.NamesMember source.segments)
    (hpath : doc.NamesMember path.segments) :
    (∃ between, doc.remove source = (.ok taken, between) ∧
        between.add path value create = (.ok (), left)) ↔
      (∃ found, doc.get source = .ok found) ∧
        ∃ between, doc.add path value create = (.ok (), between) ∧
          between.remove source = (.ok taken, left) := by
  simp only [add_eq_editAt hapart.ne_root]
  constructor
  · rintro ⟨between, hremove, hadd⟩
    have hthere : ∃ found, doc.get source = .ok found :=
      ⟨taken, (exists_remove_iff.1 ⟨between, hremove⟩).2⟩
    exact ⟨hthere, swaps_editAt editsMember_removeChild (editsMember_addChild value) hdoc
      (.inl hthere) hapart hsource hpath _ _ _ _ hremove hadd⟩
  · rintro ⟨hthere, between, hadd, hremove⟩
    exact swaps_editAt (editsMember_addChild value) editsMember_removeChild hdoc
      (.inr hthere) hapart.symm hpath hsource _ _ _ _ hadd hremove

end Json

/-! ## Operations that succeed -/

variable {create : Bool} {doc left : Json} {source path : Pointer}

/-- Two operations succeed one after the other. -/
theorem Patch.apply_pair_eq_iff {first second : PatchOp} :
    Patch.apply create [first, second] doc = (left, none) ↔
      ∃ between, first.apply create doc = ⟨between, none⟩ ∧
        second.apply create between = ⟨left, none⟩ := by
  rw [Patch.apply, Patch.applyFrom_eq_none_iff]
  constructor
  · rintro (_ | ⟨hfirst, _ | ⟨hsecond, ⟨⟩⟩⟩)
    exact ⟨_, hfirst, hsecond⟩
  · rintro ⟨between, hfirst, hsecond⟩
    exact .cons hfirst (.cons hsecond (.nil left))

namespace PatchOp

theorem Outcome.ofEdit_eq_iff {α : Type} {edited : Json.Edited α} :
    Outcome.ofEdit path edited = ⟨left, none⟩ ↔ ∃ a, edited = (.ok a, left) := by
  obtain ⟨refused | a, edited⟩ := edited
  · simp [Outcome.ofEdit]
  · simp [Outcome.ofEdit]

theorem apply_remove_eq_iff :
    (PatchOp.remove path).apply create doc = ⟨left, none⟩ ↔
      ∃ value, doc.remove path = (.ok value, left) :=
  Outcome.ofEdit_eq_iff

theorem apply_copy_eq_iff :
    (PatchOp.copy source path).apply create doc = ⟨left, none⟩ ↔
      ∃ value, doc.get source = .ok value ∧ doc.add path value create = (.ok (), left) := by
  rw [apply]
  cases doc.get source with
  | error cause => simp
  | ok value => simp [Outcome.ofEdit_eq_iff, Unique.exists_iff]

theorem apply_move_eq_iff (hne : source ≠ path) (habove : source.isAbove path = false) :
    (PatchOp.move source path).apply create doc = ⟨left, none⟩ ↔
      ∃ value between, doc.remove source = (.ok value, between) ∧
        between.add path value create = (.ok (), left) := by
  rw [apply, if_neg hne, habove, if_neg Bool.false_ne_true]
  rcases doc.remove source with ⟨cause | value, between⟩
  · simp
  · simp [Outcome.ofEdit_eq_iff, Unique.exists_iff]

/-- A move between members that lie apart is a copy of which the original is removed. -/
theorem apply_move_eq_iff_copy (hdoc : doc.Ordered) (hapart : source.Apart path)
    (hsource : doc.NamesMember source.segments) (hpath : doc.NamesMember path.segments) :
    (PatchOp.move source path).apply create doc = ⟨left, none⟩ ↔
      Patch.apply create [.copy source path, .remove source] doc = (left, none) := by
  have habove : source.isAbove path = false := by
    rw [Bool.eq_false_iff, ne_eq, Pointer.isAbove_iff]
    exact fun h ↦ hapart.1 h.1
  rw [apply_move_eq_iff hapart.ne habove, Patch.apply_pair_eq_iff]
  constructor
  · rintro ⟨value, hmoved⟩
    obtain ⟨-, copied, hadd, hlast⟩ :=
      (Json.exists_remove_add_iff hdoc hapart hsource hpath).1 hmoved
    obtain ⟨between, hremove, -⟩ := hmoved
    have hvalue : doc.get source = .ok value := (Json.exists_remove_iff.1 ⟨between, hremove⟩).2
    exact ⟨copied, apply_copy_eq_iff.2 ⟨value, hvalue, hadd⟩, apply_remove_eq_iff.2 ⟨value, hlast⟩⟩
  · rintro ⟨copied, hcopy, hremove⟩
    obtain ⟨value, hvalue, hadd⟩ := apply_copy_eq_iff.1 hcopy
    obtain ⟨taken, hlast⟩ := apply_remove_eq_iff.1 hremove
    obtain ⟨between, hfirst, hsecond⟩ := (Json.exists_remove_add_iff hdoc hapart hsource hpath).2
      ⟨⟨value, hvalue⟩, copied, hadd, hlast⟩
    -- what is taken out is what was copied, since it was there before
    have htaken : doc.get source = .ok taken := (Json.exists_remove_iff.1 ⟨between, hfirst⟩).2
    obtain rfl : value = taken := Except.ok.inj (hvalue.symm.trans htaken)
    exact ⟨value, between, hfirst, hsecond⟩

/-- **Copies and moves.** For every document, two pointers, and with or without creating members:

* after a copy that succeeds, the pointer that it was made for leads to what the other one led to,
  unless it ends with `-` in an array: then this is the last item, after those that were there;
* a document is moved to its own place if there is one, and in any case nothing changes;
* it is never moved to a place below itself, and then too nothing changes;
* if neither pointer begins with the other, and neither names an item of an array, then to move a
  document is to copy it and to remove the original: one succeeds if the other does, and leaves the
  same document. -/
theorem copy_move (create : Bool) (doc : Json) (source path : Pointer) :
    (∀ left, (PatchOp.copy source path).apply create doc = ⟨left, none⟩ →
      ∃ value, doc.get source = .ok value ∧
        (left.get path = .ok value ∨
          ∃ container items, path = Pointer.part container "-" ∧
            doc.get container = .ok (.arr items) ∧
            left.get container = .ok (.arr (items ++ [value])))) ∧
    (((PatchOp.move path path).apply create doc).doc = doc ∧
      (((PatchOp.move path path).apply create doc).error = none ↔
        ∃ value, doc.get path = .ok value)) ∧
    (source.segments <+: path.segments → source ≠ path →
      (PatchOp.move source path).apply create doc =
        ⟨doc, some (.moveIntoItself source path)⟩) ∧
    (doc.Ordered → source.Apart path → doc.NamesMember source.segments →
      doc.NamesMember path.segments → ∀ left,
        (PatchOp.move source path).apply create doc = ⟨left, none⟩ ↔
          Patch.apply create [.copy source path, .remove source] doc = (left, none)) := by
  refine ⟨fun left hcopy ↦ ?_, ?_, fun hfront hne ↦ ?_, fun hdoc hapart hsource hpath left ↦ ?_⟩
  · obtain ⟨value, hvalue, hadd⟩ := apply_copy_eq_iff.1 hcopy
    exact ⟨value, hvalue, Json.get_add hadd⟩
  · rw [apply, if_pos rfl]
    cases doc.get path with
    | error cause => simp [Outcome.ofEdit]
    | ok value => simp [Outcome.ofEdit]
  · rw [apply, if_neg hne, if_pos (Pointer.isAbove_iff.2 ⟨hfront, hne⟩)]
  · exact apply_move_eq_iff_copy hdoc hapart hsource hpath

/-- An item is copied to the end of another array. A member is moved through the other item into an
object that is created, from which it was copied before it was removed. Nothing is moved below
itself. -/
theorem copy_move_created :
    let doc : Json := .obj [("a", .arr [.obj [("k", .null)], .int 1]), ("b", .bool true)]
    let copied : Json :=
      .obj [("a", .arr [.obj [("k", .null)], .int 1, .obj [("k", .null)]]), ("b", .bool true)]
    let moved : Json := .obj [("a", .arr [.obj [("k", .null), ("l", .obj [("m", .bool true)])],
      .int 1])]
    doc.Ordered ∧
      (PatchOp.copy ⟨["a", "0"]⟩ ⟨["a", "-"]⟩).apply false doc = ⟨copied, none⟩ ∧
      copied.get ⟨["a"]⟩ = .ok (.arr ([.obj [("k", .null)], .int 1] ++ [.obj [("k", .null)]])) ∧
      (PatchOp.move ⟨["b"]⟩ ⟨["a", "0", "l", "m"]⟩).apply true doc = ⟨moved, none⟩ ∧
      Patch.apply true [.copy ⟨["b"]⟩ ⟨["a", "0", "l", "m"]⟩, .remove ⟨["b"]⟩] doc =
        (moved, none) ∧
      (PatchOp.move ⟨["b"]⟩ ⟨["b", "m"]⟩).apply true doc =
        ⟨doc, some (.moveIntoItself ⟨["b"]⟩ ⟨["b", "m"]⟩)⟩ := by
  intro doc copied moved
  have hdoc : doc.Ordered := by
    have hkeys : "a" < "b" := by decide
    refine Json.ordered_obj.2 ⟨List.pairwise_pair.2 hkeys, ?_⟩
    simp [Json.int, Json.Ordered, Json.OrderedMembers, Json.OrderedItems, Dict.Sorted]
  have hcopy : (PatchOp.copy ⟨["a", "0"]⟩ ⟨["a", "-"]⟩).apply false doc = ⟨copied, none⟩ := by
    decide
  have hmove : (PatchOp.move ⟨["b"]⟩ ⟨["a", "0", "l", "m"]⟩).apply true doc = ⟨moved, none⟩ := by
    decide
  have hapart : Pointer.Apart ⟨["b"]⟩ ⟨["a", "0", "l", "m"]⟩ := by decide
  have hsource : doc.NamesMember ["b"] := by
    intro items hitems
    have hwhole : Json.obj _ = Json.arr items := Except.ok.inj hitems
    cases hwhole
  have hpath : doc.NamesMember ["a", "0", "l", "m"] := by
    intro items hitems
    have hmissing : doc.follow ["a", "0", "l"] = .error .notFound := by decide
    have hfollow : doc.follow ["a", "0", "l"] = .ok (.arr items) := hitems
    rw [hmissing] at hfollow
    cases hfollow
  obtain ⟨value, hvalue, hheld⟩ := (copy_move false doc ⟨["a", "0"]⟩ ⟨["a", "-"]⟩).1 copied hcopy
  obtain ⟨-, -, -, hmoved⟩ := copy_move true doc ⟨["b"]⟩ ⟨["a", "0", "l", "m"]⟩
  obtain ⟨-, -, hbelow, -⟩ := copy_move true doc ⟨["b"]⟩ ⟨["b", "m"]⟩
  refine ⟨hdoc, hcopy, ?_, hmove, (hmoved hdoc hapart hsource hpath moved).1 hmove,
    hbelow (by decide) (by decide)⟩
  have hend : copied.get ⟨["a", "-"]⟩ = .error (.outOfBounds "-" 3) := by decide
  rcases hheld with hfound | ⟨container, items, hcontainer, hitems, hlonger⟩
  · rw [hend] at hfound
    cases hfound
  · have hsegments : ["a"] ++ ["-"] = container.segments ++ ["-"] :=
      congrArg Pointer.segments hcontainer
    obtain rfl : container = ⟨["a"]⟩ :=
      congrArg Pointer.mk (List.append_cancel_right hsegments).symm
    have hpresent : doc.get ⟨["a"]⟩ = .ok (.arr [.obj [("k", .null)], .int 1]) := by decide
    have hitem : doc.get ⟨["a", "0"]⟩ = .ok (.obj [("k", .null)]) := by decide
    rw [hpresent] at hitems
    rw [hitem] at hvalue
    cases hitems
    cases hvalue
    exact hlonger

end PatchOp

end AgentSession
