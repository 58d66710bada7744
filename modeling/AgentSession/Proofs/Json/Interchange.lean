import AgentSession.Proofs.Json.Ordered
import AgentSession.Proofs.Json.Put
/-!
# Edits that may be made in either order

To take a document out and to put one in elsewhere are two edits, and the second of them walks
through a document that the first has changed. This module shows that the order does not matter if
their pointers lie apart and name members of objects (`Json.swaps_editAt`).

## Where the pointers part

As long as two pointers go through the same parts, both edits change one part and put it back, and
it is enough that they can be swapped in that part (`Json.swaps_of_part`). Where they part in an
array, each changes one item and leaves the others where they are (`Json.swaps_items`). Where they
part in an object, each changes one member and asks about no other (`Json.EditsMember`): it puts a
member in, takes it out, or changes what is in it. Such edits can be swapped because members have
no order of their own, so that a dictionary is what its look-ups say (`Dict.Sorted.update_comm`).

Items that are put in or taken out are different: they move the items behind them, and a pointer
into the same array would then lead elsewhere.
-/

namespace AgentSession.Json

variable {α β : Type} {create create' : Bool} {change : String → Json → Edited α}
  {change' : String → Json → Edited β} {e : Json → Edited α} {f : Json → Edited β}
  {doc part value left : Json} {segment other key next next' : String}
  {rest rest' segments others : List String} {members : Dict Json} {items : List Json}

/-- If one edit and then the other succeed, they also succeed the other way round, with the same
results and the same document in the end. -/
def Swaps (e : Json → Edited α) (f : Json → Edited β) (doc : Json) : Prop :=
  ∀ a b between left, e doc = (.ok a, between) → f between = (.ok b, left) →
    ∃ between, f doc = (.ok b, between) ∧ e between = (.ok a, left)

/-! ## Edits of one member -/

/-- On objects, an edit depends on one member and changes no other. -/
def EditsMember (key : String) (e : Json → Edited α) : Prop :=
  ∃ act : Option Json → α → Option Json → Prop, ∀ members : Dict Json, members.Sorted →
    ∀ a left, e (.obj members) = (.ok a, left) ↔
      ∃ member, act (members.get? key) a member ∧ .obj (Dict.update members key member) = left

theorem editsMember_addChild (value : Json) (key : String) :
    EditsMember key (addChild value key) := by
  refine ⟨fun _ _ member ↦ member = some value, fun members _ a left ↦ ?_⟩
  rw [addChild, Prod.mk.injEq]
  constructor
  · rintro ⟨-, rfl⟩
    exact ⟨some value, rfl, rfl⟩
  · rintro ⟨member, rfl, rfl⟩
    exact ⟨rfl, rfl⟩

theorem editsMember_removeChild (key : String) : EditsMember key (removeChild key) := by
  refine ⟨fun old a member ↦ old = some a ∧ member = none, fun members _ a left ↦ ?_⟩
  rw [removeChild]
  cases Dict.get? members key with
  | none => simp
  | some child => simp [Dict.update]

/-- To put a part back into a member, created or not, is to insert it. -/
theorem putPart_obj_eq_insert (h : members.Sorted)
    (henter : enter? create key (.obj members) = some part) (part' : Json) :
    putPart create key part' (.obj members) = .obj (Dict.insert members key part') := by
  rw [putPart]
  cases create with
  | false =>
    have hmember : Dict.get? members key = some part := henter
    have hensure : Dict.ensure members key empty = members :=
      Dict.ensure_eq_self (by rw [Dict.has, hmember, Option.isSome_some]) empty
    rw [← Dict.Sorted.replace_ensure h key empty part', hensure]
    rfl
  | true =>
    rw [membersFor, if_pos rfl, Dict.Sorted.replace_ensure h]

theorem editsMember_editAt (create : Bool) (change : String → Json → Edited α) (key next : String)
    (rest : List String) :
    EditsMember key fun doc ↦ doc.editAt create change (key :: next :: rest) := by
  refine ⟨fun old a member ↦ ∃ part part',
      old.or (if create then some empty else none) = some part ∧
        part.editAt create change (next :: rest) = (.ok a, part') ∧ some part' = member,
    fun members hmembers a left ↦ ?_⟩
  have henter : enter? create key (.obj members) =
      (Dict.get? members key).or (if create then some empty else none) :=
    get?_membersFor create key members
  rw [editAt_cons_ok_iff, henter]
  constructor
  · rintro ⟨part, part', hpart, hchange, rfl⟩
    refine ⟨some part', ⟨part, part', hpart, hchange, rfl⟩, ?_⟩
    rw [putPart_obj_eq_insert hmembers (henter.trans hpart), Dict.update]
  · rintro ⟨_, ⟨part, part', hpart, hchange, rfl⟩, rfl⟩
    refine ⟨part, part', hpart, hchange, ?_⟩
    rw [putPart_obj_eq_insert hmembers (henter.trans hpart), Dict.update]

/-- Edits of different members can be swapped. -/
theorem EditsMember.swaps (he : EditsMember key e) (hf : EditsMember other f) (hne : key ≠ other)
    (h : members.Sorted) : Swaps e f (.obj members) := by
  intro a b between left hfirst hsecond
  obtain ⟨act, hact⟩ := he
  obtain ⟨act', hact'⟩ := hf
  obtain ⟨member, hmember, rfl⟩ := (hact members h a between).1 hfirst
  obtain ⟨member', hmember', rfl⟩ := (hact' _ (h.update key member) b left).1 hsecond
  rw [h.get?_update, if_neg hne] at hmember'
  refine ⟨_, (hact' members h b _).2 ⟨member', hmember', rfl⟩, ?_⟩
  refine (hact _ (h.update other member') a _).2 ⟨member, ?_, ?_⟩
  · rw [h.get?_update, if_neg (Ne.symm hne)]
    exact hmember
  · rw [h.update_comm hne]

/-! ## Edits of one part -/

/-- A walk into a part that is there changes that part and puts it back. -/
theorem editAt_ok_iff_of_enter? (h : enter? false segment doc = some part) {a : α} :
    doc.editAt create change (segment :: next :: rest) = (.ok a, left) ↔
      ∃ part', part.editAt create change (next :: rest) = (.ok a, part') ∧
        putPart false segment part' doc = left := by
  rw [editAt_cons_ok_iff, enter?_of_there h]
  constructor
  · rintro ⟨_, part', ⟨⟩, hpart, hleft⟩
    exact ⟨part', hpart, putPart_of_there h create part' ▸ hleft⟩
  · rintro ⟨part', hpart, hleft⟩
    exact ⟨part, part', rfl, hpart, (putPart_of_there h create part').trans hleft⟩

/-- Edits that go into the same part can be swapped if they can in that part. -/
theorem swaps_of_part (h : enter? false segment doc = some part)
    (hpart : Swaps (fun part ↦ part.editAt create change (next :: rest))
      (fun part ↦ part.editAt create' change' (next' :: rest')) part) :
    Swaps (fun doc ↦ doc.editAt create change (segment :: next :: rest))
      (fun doc ↦ doc.editAt create' change' (segment :: next' :: rest')) doc := by
  intro a b between left hfirst hsecond
  -- the part is there to be entered again, as the first edit left it
  have hthere (part' : Json) :
      enter? false segment (putPart false segment part' doc) = some part' := enter?_putPart h
  obtain ⟨part', hpart', rfl⟩ := (editAt_ok_iff_of_enter? h).1 hfirst
  obtain ⟨part'', hpart'', rfl⟩ := (editAt_ok_iff_of_enter? (hthere part')).1 hsecond
  obtain ⟨other, hother, hlast⟩ := hpart a b part' part'' hpart' hpart''
  refine ⟨_, (editAt_ok_iff_of_enter? h).2 ⟨other, hother, rfl⟩, ?_⟩
  refine (editAt_ok_iff_of_enter? (hthere other)).2 ⟨part'', hlast, ?_⟩
  rw [putPart_putPart h, putPart_putPart h]

/-- Edits of what is in different items of an array can be swapped. -/
theorem swaps_items (hne : segment ≠ other) :
    Swaps (fun doc ↦ doc.editAt create change (segment :: next :: rest))
      (fun doc ↦ doc.editAt create' change' (other :: next' :: rest')) (.arr items) := by
  intro a b between left hfirst hsecond
  obtain ⟨item, changed, hitem, hchange, rfl⟩ := editAt_cons_ok_iff.1 hfirst
  have hitem : enter? false segment (.arr items) = some item := hitem
  obtain ⟨_, ⟨⟩, -⟩ | ⟨_, i, ⟨⟩, hindex, -⟩ := enter?_cases hitem
  have hbetween : putPart create segment changed (.arr items) = .arr (items.set i changed) :=
    putPart_arr hindex changed
  obtain ⟨item', changed', hitem', hchange', rfl⟩ := editAt_cons_ok_iff.1 hsecond
  -- the other item is where it was before the first edit
  have hitem' : enter? false other (.arr items) = some item' := by
    rw [hbetween] at hitem'
    rw [← follow_singleton_eq_ok_iff, ← follow_putPart_of_ne hitem hne changed, putPart_arr hindex,
      follow_singleton_eq_ok_iff]
    exact hitem'
  refine ⟨_, (editAt_ok_iff_of_enter? hitem').2 ⟨changed', hchange', rfl⟩, ?_⟩
  refine (editAt_ok_iff_of_enter? (enter?_putPart_of_ne hitem' (Ne.symm hne) changed' hitem)).2
    ⟨changed, hchange, ?_⟩
  rw [← putPart_comm hitem hne hitem', putPart_arr hindex, hbetween]
  rfl

/-! ## Pointers that lie apart -/

/-- All segments but the last lead to no array, so the last names a member if anything. -/
def NamesMember (doc : Json) (segments : List String) : Prop :=
  ∀ items, doc.follow segments.dropLast ≠ .ok (.arr items)

theorem NamesMember.enter (h : doc.NamesMember (segment :: next :: rest))
    (henter : enter? false segment doc = some part) : part.NamesMember (next :: rest) := by
  intro items hfollow
  exact h items (follow_cons_ok_iff.2 ⟨part, henter, hfollow⟩)

/-- An edit of a container that edits one member, if the container is an object, does so at the end
of any walk. -/
theorem editsMember_walk (hchange : ∀ key, EditsMember key (change key)) (create : Bool)
    (key : String) (rest : List String) :
    EditsMember key fun doc ↦ doc.editAt create change (key :: rest) := by
  cases rest with
  | nil => exact hchange key
  | cons next rest => exact editsMember_editAt create change key next rest

/-- **Edits that can be swapped.** Two edits at pointers that lie apart can be swapped if they edit
members of objects, and at least one of the two pointers leads somewhere. -/
theorem swaps_editAt (hchange : ∀ key, EditsMember key (change key))
    (hchange' : ∀ key, EditsMember key (change' key)) (hdoc : doc.Ordered)
    (hthere : (∃ found, doc.follow segments = .ok found) ∨ ∃ found, doc.follow others = .ok found)
    (hapart : ¬segments <+: others ∧ ¬others <+: segments) (hsegments : doc.NamesMember segments)
    (hothers : doc.NamesMember others) :
    Swaps (fun doc ↦ doc.editAt create change segments)
      (fun doc ↦ doc.editAt create' change' others) doc := by
  induction segments generalizing doc others with
  | nil => exact absurd List.nil_prefix hapart.1
  | cons segment rest ih =>
    cases others with
    | nil => exact absurd List.nil_prefix hapart.2
    | cons other rest' =>
      by_cases hsame : segment = other
      · -- the pointers part further down, and what they go through is there
        subst hsame
        have hbelow : ¬rest <+: rest' ∧ ¬rest' <+: rest := by
          simpa [List.cons_prefix_cons] using hapart
        obtain ⟨part, henter, hpart⟩ : ∃ part, enter? false segment doc = some part ∧
            ((∃ found, part.follow rest = .ok found) ∨ ∃ found, part.follow rest' = .ok found) := by
          rcases hthere with ⟨found, hfound⟩ | ⟨found, hfound⟩
          · obtain ⟨part, henter, hpart⟩ := follow_cons_ok_iff.1 hfound
            exact ⟨part, henter, .inl ⟨found, hpart⟩⟩
          · obtain ⟨part, henter, hpart⟩ := follow_cons_ok_iff.1 hfound
            exact ⟨part, henter, .inr ⟨found, hpart⟩⟩
        cases rest with
        | nil => exact absurd List.nil_prefix hbelow.1
        | cons next rest =>
          cases rest' with
          | nil => exact absurd List.nil_prefix hbelow.2
          | cons next' rest' =>
            exact swaps_of_part henter (ih (hdoc.enter? henter) hpart hbelow
              (hsegments.enter henter) (hothers.enter henter))
      · -- they part here, at two members or inside two items
        cases doc with
        | obj members =>
          exact (editsMember_walk hchange create segment rest).swaps
            (editsMember_walk hchange' create' other rest') hsame (ordered_obj.1 hdoc).1
        | arr items =>
          cases rest with
          | nil => exact absurd rfl (hsegments items)
          | cons next rest =>
            cases rest' with
            | nil => exact absurd rfl (hothers items)
            | cons next' rest' => exact swaps_items hsame
        | _ =>
          rcases hthere with ⟨found, hfound⟩ | ⟨found, hfound⟩ <;> cases hfound

end AgentSession.Json
