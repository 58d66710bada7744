import AgentSession.Json.Patch
import AgentSession.Json.Written
import AgentSession.Proofs.Json.Edit
import Mathlib.Data.List.InsertIdx
/-!
# Documents in order

The members of an object have no order of their own, and are kept in the order of their keys so that
a document has one representation (`Json.Ordered`). This is what makes "the same document" the same
as "an equal document": to take a member out and to put it in again would otherwise move it.

## Where documents come from

A document that is read from a text is in order (`Json.ordered_of_parse`). What is found in an
ordered document is ordered (`Json.Ordered.get`), and adding, removing and replacing keep the order,
also where they fail (`Json.Ordered.add`, `Json.Ordered.remove`, `Json.Ordered.replace`), and so do
the patches that are made of them (`Patch.ordered_apply`).
-/

namespace AgentSession

namespace Json

variable {α : Type} {create : Bool} {change : String → Json → Edited α}
  {doc part value : Json} {segment : String} {segments : List String}

/-! ## Items and members -/

theorem orderedItems_iff {items : List Json} :
    OrderedItems items ↔ ∀ item ∈ items, item.Ordered := by
  induction items with
  | nil => simp [OrderedItems]
  | cons item items ih => simp [OrderedItems, ih]

theorem orderedMembers_iff {members : List (String × Json)} :
    OrderedMembers members ↔ ∀ member ∈ members, member.2.Ordered := by
  induction members with
  | nil => simp [OrderedMembers]
  | cons member members ih => simp [OrderedMembers, ih]

theorem ordered_arr {items : List Json} : (arr items).Ordered ↔ ∀ item ∈ items, item.Ordered := by
  rw [Ordered, orderedItems_iff]

theorem ordered_obj {members : Dict Json} :
    (obj members).Ordered ↔ members.Sorted ∧ ∀ member ∈ members, member.2.Ordered := by
  rw [Ordered, orderedMembers_iff]

theorem ordered_empty : empty.Ordered :=
  ordered_obj.2 ⟨List.Pairwise.nil, fun _ hmember ↦ absurd hmember List.not_mem_nil⟩

/-! ## What is read from a text -/

mutual

theorem ordered_of_value? : ∀ (depth : Nat) (w : Written) {doc : Json},
    w.value? depth = some doc → doc.Ordered
  | _, .null, _, h => by
    rw [Written.value?] at h
    exact Option.some.inj h ▸ trivial
  | _, .bool b, _, h => by
    rw [Written.value?] at h
    exact Option.some.inj h ▸ trivial
  | _, .number n, _, h => by
    rw [Written.value?] at h
    obtain ⟨value, -, rfl⟩ := Option.map_eq_some_iff.1 h
    trivial
  | _, .text s, _, h => by
    rw [Written.value?] at h
    obtain ⟨value, -, rfl⟩ := Option.map_eq_some_iff.1 h
    trivial
  | 0, .array _, _, h | 0, .object _, _, h => by
    rw [Written.value?] at h
    cases h
  | depth + 1, .array items, _, h => by
    rw [Written.value?] at h
    obtain ⟨values, hvalues, rfl⟩ := Option.map_eq_some_iff.1 h
    exact ordered_arr.2 (ordered_of_valueItems? depth items hvalues)
  | depth + 1, .object members, _, h => by
    rw [Written.value?] at h
    obtain ⟨pairs, hpairs, rfl⟩ := Option.map_eq_some_iff.1 h
    have hvalues := ordered_of_valueMembers? depth members hpairs
    exact ordered_obj.2 ⟨Dict.sorted_ofList pairs,
      fun member hmember ↦ hvalues member (Dict.mem_ofList hmember)⟩

theorem ordered_of_valueItems? : ∀ (depth : Nat) (items : List Written) {values : List Json},
    Written.valueItems? depth items = some values → ∀ value ∈ values, value.Ordered
  | _, [], _, h => by
    rw [Written.valueItems?] at h
    obtain rfl := Option.some.inj h
    simp
  | depth, item :: items, _, h => by
    simp only [Written.valueItems?, Option.bind_eq_bind, Option.bind_eq_some_iff] at h
    obtain ⟨value, hvalue, values, hvalues, ⟨⟩⟩ := h
    exact List.forall_mem_cons.2
      ⟨ordered_of_value? depth item hvalue, ordered_of_valueItems? depth items hvalues⟩

theorem ordered_of_valueMembers? : ∀ (depth : Nat) (members : List (Option String × Written))
    {pairs : List (String × Json)},
    Written.valueMembers? depth members = some pairs → ∀ pair ∈ pairs, pair.2.Ordered
  | _, [], _, h => by
    rw [Written.valueMembers?] at h
    obtain rfl := Option.some.inj h
    simp
  | depth, (key, item) :: members, _, h => by
    simp only [Written.valueMembers?, Option.bind_eq_bind, Option.bind_eq_some_iff] at h
    obtain ⟨k, -, value, hvalue, pairs, hpairs, ⟨⟩⟩ := h
    exact List.forall_mem_cons.2
      ⟨ordered_of_value? depth item hvalue, ordered_of_valueMembers? depth members hpairs⟩

end

/-- A document that is read from a text is in order, whatever the order of the text. -/
theorem ordered_of_parse {text : String} (h : parse text = some doc) : doc.Ordered := by
  obtain ⟨w, -, hw⟩ := Option.bind_eq_some_iff.1 h
  exact ordered_of_value? depthLimit w hw

/-! ## Steps -/

theorem ordered_membersFor {members : Dict Json} (h : (obj members).Ordered) (create : Bool)
    (key : String) : (obj (membersFor create key members)).Ordered := by
  obtain ⟨hsorted, hvalues⟩ := ordered_obj.1 h
  cases create with
  | false => exact h
  | true =>
    rw [membersFor, if_pos rfl, Dict.ensure]
    split
    · exact h
    · refine ordered_obj.2 ⟨hsorted.insert key empty, fun member hmember ↦ ?_⟩
      rcases Dict.mem_insert hmember with rfl | hmember
      · exact ordered_empty
      · exact hvalues member hmember

theorem Ordered.enter? (h : doc.Ordered) (henter : doc.enter? create segment = some part) :
    part.Ordered := by
  cases doc with
  | obj members =>
    rw [Json.enter?] at henter
    have hmembers := (ordered_obj.1 (ordered_membersFor h create segment)).2
    exact hmembers _ (Dict.mem_of_get? henter)
  | arr items =>
    rw [Json.enter?] at henter
    split at henter
    · cases henter
    · exact ordered_arr.1 h part (List.mem_of_getElem? henter)
  | _ => cases henter

theorem Ordered.putPart (h : doc.Ordered) (hpart : part.Ordered) (create : Bool)
    (segment : String) : (putPart create segment part doc).Ordered := by
  cases doc with
  | obj members =>
    obtain ⟨hsorted, hvalues⟩ := ordered_obj.1 (ordered_membersFor h create segment)
    refine ordered_obj.2 ⟨hsorted.replace segment part, fun member hmember ↦ ?_⟩
    rcases Dict.mem_replace hmember with rfl | hmember
    · exact hpart
    · exact hvalues member hmember
  | arr items =>
    rw [Json.putPart]
    split
    · exact h
    · refine ordered_arr.2 fun item hitem ↦ ?_
      rcases List.mem_or_eq_of_mem_set hitem with hitem | rfl
      · exact ordered_arr.1 h item hitem
      · exact hpart
  | _ => exact h

/-! ## Walks -/

theorem Ordered.follow (h : doc.Ordered) (hvalue : doc.follow segments = .ok value) :
    value.Ordered := by
  induction segments generalizing doc with
  | nil => exact Except.ok.inj hvalue ▸ h
  | cons segment rest ih =>
    obtain ⟨part, henter, hpart⟩ := follow_cons_ok_iff.1 hvalue
    exact ih (h.enter? henter) hpart

theorem Ordered.get {p : Pointer} (h : doc.Ordered) (hvalue : doc.get p = .ok value) :
    value.Ordered :=
  h.follow hvalue

/-- A walk keeps documents in order if the change at its end does. -/
theorem Ordered.editAt
    (hchange : ∀ last (container : Json), container.Ordered → (change last container).2.Ordered)
    (h : doc.Ordered) : (doc.editAt create change segments).2.Ordered := by
  cases segments with
  | nil => exact h
  | cons segment rest =>
    induction rest generalizing segment doc with
    | nil => exact hchange segment doc h
    | cons next rest ih =>
      cases henter : doc.enter? create segment with
      | none =>
        obtain ⟨refused, hrefused⟩ := editAt_of_enter?_eq_none henter change next rest
        rw [hrefused]
        exact h
      | some part =>
        rw [editAt_of_enter? henter]
        exact h.putPart (ih (h.enter? henter) next) create segment

/-! ## Edits -/

theorem Ordered.addChild (hvalue : value.Ordered) (last : String) (h : doc.Ordered) :
    (addChild value last doc).2.Ordered := by
  cases doc with
  | obj members =>
    obtain ⟨hsorted, hvalues⟩ := ordered_obj.1 h
    refine ordered_obj.2 ⟨hsorted.insert last value, fun member hmember ↦ ?_⟩
    rcases Dict.mem_insert hmember with rfl | hmember
    · exact hvalue
    · exact hvalues member hmember
  | arr items =>
    rw [Json.addChild]
    split
    · exact h
    · refine ordered_arr.2 fun item hitem ↦ ?_
      rcases List.eq_or_mem_of_mem_insertIdx hitem with rfl | hitem
      · exact hvalue
      · exact ordered_arr.1 h item hitem
  | _ => exact h

theorem Ordered.removeChild (last : String) (h : doc.Ordered) :
    (removeChild last doc).2.Ordered := by
  cases doc with
  | obj members =>
    obtain ⟨hsorted, hvalues⟩ := ordered_obj.1 h
    rw [Json.removeChild]
    split
    · exact ordered_obj.2 ⟨hsorted.erase last, fun member hmember ↦
        hvalues member ((Dict.erase_sublist members last).mem hmember)⟩
    · exact h
  | arr items =>
    rw [Json.removeChild]
    split
    · exact h
    · split
      · exact ordered_arr.2 fun item hitem ↦
          ordered_arr.1 h item (List.mem_of_mem_eraseIdx hitem)
      · exact h
  | _ => exact h

theorem Ordered.replaceChild (hvalue : value.Ordered) (last : String) (h : doc.Ordered) :
    (replaceChild value last doc).2.Ordered := by
  cases doc with
  | obj members =>
    rw [Json.replaceChild]
    split
    · exact h.putPart hvalue false last
    · exact h
  | arr items =>
    rw [Json.replaceChild]
    split
    · exact h
    · rename_i i hindex
      have hput : Json.putPart false last value (arr items) = arr (items.set i value) := by
        rw [Json.putPart, hindex]
      exact hput ▸ h.putPart hvalue false last
  | _ => exact h

theorem Ordered.add (h : doc.Ordered) (hvalue : value.Ordered) (p : Pointer) (create : Bool) :
    (doc.add p value create).2.Ordered := by
  rw [Json.add]
  split
  · exact hvalue
  · exact Ordered.editAt (fun last _ ↦ Ordered.addChild hvalue last) h

theorem Ordered.remove (h : doc.Ordered) (p : Pointer) : (doc.remove p).2.Ordered :=
  Ordered.editAt (fun last _ ↦ Ordered.removeChild last) h

theorem Ordered.replace (h : doc.Ordered) (hvalue : value.Ordered) (p : Pointer) :
    (doc.replace p value).2.Ordered := by
  rw [Json.replace]
  split
  · exact hvalue
  · exact Ordered.editAt (fun last _ ↦ Ordered.replaceChild hvalue last) h

end Json

/-! ## Patches -/

variable {doc : Json} {create : Bool}

/-- The document that an operation brings, if it puts one in, is in order. -/
def PatchOp.Ordered : PatchOp → Prop
  | .add _ value | .replace _ value => value.Ordered
  | .remove _ | .move _ _ | .copy _ _ | .test _ _ => True

theorem PatchOp.ordered_apply {op : PatchOp} (hop : op.Ordered) (h : doc.Ordered) :
    (op.apply create doc).doc.Ordered := by
  have hedit {α : Type} (path : Pointer) (edited : Json.Edited α) :
      (Outcome.ofEdit path edited).doc = edited.2 := by
    obtain ⟨_ | _, _⟩ := edited <;> rfl
  cases op with
  | add path value =>
    rw [apply, hedit]
    exact h.add hop path create
  | remove path =>
    rw [apply, hedit]
    exact h.remove path
  | replace path value =>
    rw [apply, hedit]
    exact h.replace hop path
  | move source path =>
    have hleft := h.remove source
    rw [apply]
    split
    · rw [hedit]
      exact h
    · split
      · exact h
      · split
        · rename_i hremove
          rw [hremove] at hleft
          exact hleft
        · rename_i value left hremove
          rw [hremove] at hleft
          have hvalue := (Json.exists_remove_iff.1 ⟨left, hremove⟩).2
          rw [hedit]
          exact hleft.add (h.get hvalue) path create
  | copy source path =>
    rw [apply]
    split
    · exact h
    · rename_i value hvalue
      rw [hedit]
      exact h.add (h.get hvalue) path create
  | test path value =>
    rw [apply]
    split
    · exact h
    · split <;> exact h

/-- **Patches keep documents in order**, also those that fail half-way. -/
theorem Patch.ordered_apply {ops : List PatchOp} (hops : ∀ op ∈ ops, op.Ordered) (h : doc.Ordered) :
    (Patch.apply create ops doc).1.Ordered := by
  suffices key : ∀ index, (Patch.applyFrom create index doc ops).1.Ordered from key 0
  intro index
  induction ops generalizing index doc with
  | nil => exact h
  | cons op ops ih =>
    obtain ⟨hop, hrest⟩ := List.forall_mem_cons.1 hops
    have hafter : (op.apply create doc).doc.Ordered := PatchOp.ordered_apply hop h
    rw [Patch.applyFrom]
    split
    · rename_i left happly
      rw [happly] at hafter
      exact ih hrest hafter (index + 1)
    · rename_i left cause happly
      rw [happly] at hafter
      exact hafter

end AgentSession
