import AgentSession.Proofs.Json.Lens
import AgentSession.Proofs.Json.Ordered
/-!
# Adding and removing

To add a document at a pointer and to remove it again leaves everything as it was, and so does to
remove one and to add it again at the same pointer (`Json.add_remove_inverse`). Both edits change
the container that all segments but the last lead to, so this is shown of one container
(`Json.removeChild_addChild`, `Json.addChild_removeChild`), and carries over to the whole document
because the container is put back into its place.

## What is needed for it

A document that takes the place of a member cannot be undone by removing it. Neither can one that
was added at the segment `-`, since nothing is found there: in an array it names the place after the
last item, wherever that is. Where a member is put back, it has to come back to where it stood, and
this is what the order of members is for (`Json.Ordered`); items of arrays need no order.
-/

namespace AgentSession

/-- The place in a container that a segment names. -/
def Pointer.part (container : Pointer) (segment : String) : Pointer :=
  ⟨container.segments ++ [segment]⟩

/-- All places but that of the whole document are in a container. -/
theorem Pointer.exists_part_iff {p : Pointer} :
    (∃ container segment, p = part container segment) ↔ p ≠ .root := by
  obtain ⟨segments⟩ := p
  constructor
  · rintro ⟨container, segment, hp⟩ hroot
    rw [hroot, root, part, Pointer.mk.injEq] at hp
    exact List.append_ne_nil_of_right_ne_nil _ (List.cons_ne_nil _ _) hp.symm
  · intro hroot
    rcases List.eq_nil_or_concat segments with rfl | ⟨parents, last, rfl⟩
    · exact absurd rfl hroot
    · exact ⟨⟨parents⟩, last, by rw [part, List.concat_eq_append]⟩

namespace Json

variable {doc object value left : Json} {container : Pointer} {last : String} {create : Bool}

/-! ## One container -/

/-- A document that was added is the one that is removed again, unless it took the place of a
member. -/
theorem removeChild_addChild (h : addChild value last object = (.ok (), left))
    (hlast : last ≠ "-") (hfree : object.member? last = none) :
    removeChild last left = (.ok value, object) := by
  cases object with
  | obj members =>
    obtain ⟨-, rfl⟩ := Prod.mk.inj h
    rw [removeChild, Dict.get?_insert_self, Dict.erase_insert hfree]
  | arr items =>
    rw [addChild] at h
    cases hindex : Pointer.index last items.length true with
    | error e =>
      rw [hindex] at h
      cases h
    | ok i =>
      rw [hindex] at h
      obtain ⟨-, rfl⟩ := Prod.mk.inj h
      have hle : i ≤ items.length := Pointer.index_le hindex
      -- the numeral names the new item, which need not have been one of the old
      have hitem : Pointer.index last (items.insertIdx i value).length false = .ok i := by
        rw [List.length_insertIdx_of_le_length hle value]
        exact Pointer.index_item_of_place hindex hlast
      rw [removeChild, hitem]
      dsimp only
      rw [List.getElem?_insertIdx_self, if_pos hle]
      dsimp only
      rw [List.eraseIdx_insertIdx_self]
  | _ => cases h

/-- A document that was removed is added again to where it was. -/
theorem addChild_removeChild (hobject : object.Ordered)
    (h : removeChild last object = (.ok value, left)) :
    addChild value last left = (.ok (), object) := by
  have hpart : enter? false last object = some value := removeChild_ok_iff.1 ⟨left, h⟩
  obtain ⟨members, rfl, hvalue⟩ | ⟨items, i, rfl, hindex, hvalue⟩ := enter?_cases hpart
  · rw [removeChild, hvalue] at h
    obtain ⟨-, rfl⟩ := Prod.mk.inj h
    rw [addChild, (ordered_obj.1 hobject).1.insert_erase hvalue]
  · rw [removeChild, hindex] at h
    dsimp only at h
    rw [hvalue] at h
    obtain ⟨-, rfl⟩ := Prod.mk.inj h
    obtain ⟨hlt, rfl⟩ := List.getElem?_eq_some_iff.1 hvalue
    have hnumeral := Pointer.index_item_iff.1 hindex
    -- the place of the item is a place to insert at, at the latest behind the items that are left
    have hplace : Pointer.index last (items.eraseIdx i).length true = .ok i := by
      rw [Pointer.index_eq_ok_iff, List.length_eraseIdx_of_lt hlt]
      refine ⟨.inr ⟨hnumeral.1, hnumeral.2.1⟩, ?_⟩
      simp only [true_and]
      omega
    rw [addChild, hplace]
    dsimp only
    rw [List.insertIdx_eraseIdx_getElem hlt]

theorem addChild_dash (value : Json) (items : List Json) :
    addChild value "-" (.arr items) = (.ok (), .arr (items ++ [value])) := by
  have hend : Pointer.index "-" items.length true = .ok items.length :=
    Pointer.index_eq_ok_iff.2 ⟨.inl ⟨rfl, rfl⟩, .inr ⟨rfl, rfl⟩⟩
  rw [addChild, hend]
  dsimp only
  rw [List.insertIdx_length_self]

/-! ## The container in its place -/

theorem add_part (doc : Json) (container : Pointer) (last : String) (value : Json) (create : Bool) :
    doc.add (container.part last) value create =
      doc.editAt create (addChild value) (container.segments ++ [last]) := by
  rw [add]
  split
  · rename_i h
    exact absurd h (List.append_ne_nil_of_right_ne_nil _ (List.cons_ne_nil _ _))
  · rfl

theorem remove_part (doc : Json) (container : Pointer) (last : String) :
    doc.remove (container.part last) =
      doc.editAt false removeChild (container.segments ++ [last]) := rfl

/-- Removing at a pointer undoes adding there. -/
theorem remove_add (h : doc.add (container.part last) value false = (.ok (), left))
    (hlast : last ≠ "-")
    (hfree : ∀ object, doc.get container = .ok object → object.member? last = none) :
    left.remove (container.part last) = (.ok value, doc) := by
  rw [add_part, editAt_ok_iff] at h
  obtain ⟨object, object', hobject, hadd, rfl⟩ := h
  have hremove := removeChild_addChild hadd hlast (hfree object hobject)
  rw [remove_part, editAt_ok_iff]
  refine ⟨object', object, follow_put hobject object', hremove, ?_⟩
  rw [put_put hobject, put_eq_self hobject]

/-- Adding at a pointer undoes removing there. No member has to be created for it. -/
theorem add_remove (hdoc : doc.Ordered)
    (h : doc.remove (container.part last) = (.ok value, left)) (create : Bool) :
    left.add (container.part last) value create = (.ok (), doc) := by
  rw [remove_part, editAt_ok_iff] at h
  obtain ⟨object, object', hobject, hremove, rfl⟩ := h
  have hadd := addChild_removeChild (hdoc.follow hobject) hremove
  rw [add_part, editAt_of_follow (follow_put hobject object'), hadd]
  dsimp only
  rw [put_put hobject, put_eq_self hobject]

/-- **Adding and removing.** For every document and every place in a container, which is every place
but that of the whole document:

* if a document is added there without creating members, its last segment is not `-`, and it took
  the place of no member, then it is found there, and removing it gives it back and leaves the
  document from before;
* a document is removed exactly if it is found there, and adding it again leaves the document from
  before;
* at the segment `-` of an array, a document is added as its last item, and the items before it stay
  where they are, as does everything else: the array is replaced by a longer one. -/
theorem add_remove_inverse (doc : Json) (container : Pointer) (last : String) :
    let p := container.part last
    (∀ value left, doc.add p value false = (.ok (), left) → last ≠ "-" →
      (∀ object, doc.get container = .ok object → object.member? last = none) →
        left.get p = .ok value ∧ left.remove p = (.ok value, doc)) ∧
    (∀ value, (∃ left, doc.remove p = (.ok value, left)) ↔ doc.get p = .ok value) ∧
    (doc.Ordered → ∀ value left, doc.remove p = (.ok value, left) →
      ∀ create, left.add p value create = (.ok (), doc)) ∧
    ∀ items value create, doc.get container = .ok (.arr items) →
      ∃ left, doc.add (container.part "-") value create = (.ok (), left) ∧
        left.get container = .ok (.arr (items ++ [value])) ∧
        doc.replace container (.arr (items ++ [value])) = (.ok (), left) := by
  intro p
  have hroot : p ≠ .root := Pointer.exists_part_iff.1 ⟨container, last, rfl⟩
  refine ⟨fun value left hadd hlast hfree ↦ ?_, fun value ↦ ?_, fun hdoc value left hremove ↦ ?_,
    fun items value create hitems ↦ ?_⟩
  · have hremove := remove_add hadd hlast hfree
    exact ⟨(exists_remove_iff.1 ⟨doc, hremove⟩).2, hremove⟩
  · rw [exists_remove_iff, and_iff_right hroot]
  · exact add_remove hdoc hremove
  · refine ⟨doc.put container.segments (.arr (items ++ [value])), ?_, follow_put hitems _, ?_⟩
    · rw [add_part, editAt_of_follow hitems, addChild_dash]
    · exact replace_ok_iff.2 ⟨⟨_, hitems⟩, rfl⟩

/-- In an array of two items, a document is added behind the second and removed again, and the first
is removed and added again. -/
theorem add_remove_inverse_items :
    let doc : Json := .obj [("a", .arr [.int 1, .obj []]), ("b", .null)]
    let longer : Json := .obj [("a", .arr [.int 1, .obj [], .str "x"]), ("b", .null)]
    let shorter : Json := .obj [("a", .arr [.obj []]), ("b", .null)]
    doc.add ⟨["a", "2"]⟩ (.str "x") false = (.ok (), longer) ∧
      longer.remove ⟨["a", "2"]⟩ = (.ok (.str "x"), doc) ∧
      doc.Ordered ∧ doc.remove ⟨["a", "0"]⟩ = (.ok (.int 1), shorter) ∧
      shorter.add ⟨["a", "0"]⟩ (.int 1) true = (.ok (), doc) ∧
      doc.add ⟨["a", "-"]⟩ (.str "x") false = (.ok (), longer) := by
  intro doc longer shorter
  have hadd : doc.add ⟨["a", "2"]⟩ (.str "x") false = (.ok (), longer) := by decide
  have hremove : doc.remove ⟨["a", "0"]⟩ = (.ok (.int 1), shorter) := by decide
  have hitems : doc.get ⟨["a"]⟩ = .ok (.arr [.int 1, .obj []]) := by decide
  have hkeys : "a" < "b" := by decide
  have hdoc : doc.Ordered := by
    refine ordered_obj.2 ⟨List.pairwise_pair.2 hkeys, ?_⟩
    simp [int, Ordered, OrderedMembers, OrderedItems, Dict.Sorted]
  have hfree : ∀ object, doc.get ⟨["a"]⟩ = .ok object → object.member? "2" = none := by
    intro object hobject
    rw [hitems] at hobject
    exact Except.ok.inj hobject ▸ rfl
  obtain ⟨hback, -, -, hdash⟩ := add_remove_inverse doc ⟨["a"]⟩ "2"
  obtain ⟨-, -, hagain, -⟩ := add_remove_inverse doc ⟨["a"]⟩ "0"
  obtain ⟨appended, happended, -, hreplaced⟩ := hdash _ (.str "x") false hitems
  have hlonger : appended = longer := by
    have hreplace : doc.replace ⟨["a"]⟩ (.arr [.int 1, .obj [], .str "x"]) = (.ok (), longer) := by
      decide
    exact congrArg Prod.snd (hreplaced.symm.trans hreplace)
  exact ⟨hadd, (hback _ _ hadd (by decide) hfree).2, hdoc, hremove,
    hagain hdoc _ _ hremove true, hlonger ▸ happended⟩

end Json

end AgentSession
