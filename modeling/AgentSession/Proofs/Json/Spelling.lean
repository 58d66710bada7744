import AgentSession.Proofs.Json.Compact
import AgentSession.Proofs.Json.Ordered
/-!
# Spellings of documents

A document of which the members have an order and are written once is spelled by every written
document with the same members in some order (`Written.Spells`). One of these has them in the order
of their keys, and its text is the compact text of the document (`Written.render_ofJson`).

Which spelling it is does not matter to a reader: a document that is nested in so many levels as are
allowed is read from each of them (`Written.value?_of_spells`), if its numbers are integers. Doubles
have texts as well, but these may be read as a neighbour.
-/

namespace AgentSession

namespace Json

mutual

/-- Every number is an integer of 64 bits. -/
def Integral : Json → Prop
  | .num n => ∃ i, n = .int i ∧ Literal.Fits i
  | .arr items => IntegralItems items
  | .obj members => IntegralMembers members
  | .null | .bool _ | .str _ => True

def IntegralItems : List Json → Prop
  | [] => True
  | item :: items => Integral item ∧ IntegralItems items

def IntegralMembers : List (String × Json) → Prop
  | [] => True
  | (_, value) :: members => Integral value ∧ IntegralMembers members

end

mutual

/-- How many levels of arrays and objects a document has. -/
def nesting : Json → Nat
  | .arr items => itemNesting items + 1
  | .obj members => memberNesting members + 1
  | .null | .bool _ | .num _ | .str _ => 0

def itemNesting : List Json → Nat
  | [] => 0
  | item :: items => max (nesting item) (itemNesting items)

def memberNesting : List (String × Json) → Nat
  | [] => 0
  | (_, value) :: members => max (nesting value) (memberNesting members)

end

theorem integralItems_iff {items : List Json} :
    IntegralItems items ↔ ∀ item ∈ items, item.Integral := by
  induction items with
  | nil => simp [IntegralItems]
  | cons item items ih => simp [IntegralItems, ih]

theorem integralMembers_iff {members : List (String × Json)} :
    IntegralMembers members ↔ ∀ member ∈ members, member.2.Integral := by
  induction members with
  | nil => simp [IntegralMembers]
  | cons member members ih => simp [IntegralMembers, ih]

theorem integral_arr {items : List Json} :
    (arr items).Integral ↔ ∀ item ∈ items, item.Integral := by
  rw [Integral, integralItems_iff]

theorem integral_obj {members : Dict Json} :
    (obj members).Integral ↔ ∀ member ∈ members, member.2.Integral := by
  rw [Integral, integralMembers_iff]

theorem itemNesting_le {items : List Json} {depth : Nat} :
    itemNesting items ≤ depth ↔ ∀ item ∈ items, item.nesting ≤ depth := by
  induction items with
  | nil => simp [itemNesting]
  | cons item items ih => rw [itemNesting, Nat.max_le, ih, List.forall_mem_cons]

theorem memberNesting_le {members : List (String × Json)} {depth : Nat} :
    memberNesting members ≤ depth ↔ ∀ member ∈ members, member.2.nesting ≤ depth := by
  induction members with
  | nil => simp [memberNesting]
  | cons member members ih => rw [memberNesting, Nat.max_le, ih, List.forall_mem_cons]

theorem nesting_arr_le {items : List Json} {depth : Nat} :
    (arr items).nesting ≤ depth + 1 ↔ ∀ item ∈ items, item.nesting ≤ depth := by
  rw [nesting, Nat.succ_le_succ_iff, itemNesting_le]

theorem nesting_obj_le {members : Dict Json} {depth : Nat} :
    (obj members).nesting ≤ depth + 1 ↔ ∀ member ∈ members, member.2.nesting ≤ depth := by
  rw [nesting, Nat.succ_le_succ_iff, memberNesting_le]

/-- A document that is read back from its text where so many levels are allowed. -/
structure Readable (doc : Json) (depth : Nat) : Prop where
  ordered : doc.Ordered
  integral : doc.Integral
  nesting_le : doc.nesting ≤ depth

theorem readable_str (s : String) (depth : Nat) : (str s).Readable depth :=
  ⟨trivial, trivial, Nat.zero_le _⟩

theorem readable_bool (b : Bool) (depth : Nat) : (bool b).Readable depth :=
  ⟨trivial, trivial, Nat.zero_le _⟩

theorem readable_nat {n : Nat} (h : n < Literal.wordBound) (depth : Nat) : (nat n).Readable depth :=
  ⟨trivial, ⟨n, rfl, by omega, by omega⟩, Nat.zero_le _⟩

variable {depth : Nat}

theorem Readable.arr {items : List Json} (h : ∀ item ∈ items, item.Readable depth) :
    (Json.arr items).Readable (depth + 1) where
  ordered := ordered_arr.2 fun item hitem ↦ (h item hitem).ordered
  integral := integral_arr.2 fun item hitem ↦ (h item hitem).integral
  nesting_le := nesting_arr_le.2 fun item hitem ↦ (h item hitem).nesting_le

theorem Readable.obj {members : Dict Json} (hsorted : members.Sorted)
    (h : ∀ member ∈ members, member.2.Readable depth) :
    (Json.obj members).Readable (depth + 1) where
  ordered := ordered_obj.2 ⟨hsorted, fun member hmember ↦ (h member hmember).ordered⟩
  integral := integral_obj.2 fun member hmember ↦ (h member hmember).integral
  nesting_le := nesting_obj_le.2 fun member hmember ↦ (h member hmember).nesting_le

theorem Readable.object {members : List (String × Json)}
    (h : ∀ member ∈ members, member.2.Readable depth) : (object members).Readable (depth + 1) :=
  .obj (Dict.sorted_ofList members) fun member hmember ↦ h member (Dict.mem_ofList hmember)

end Json

namespace Written

/-! ## What a written document spells -/

mutual

/-- A written document has the values of a document, and its members in some order. -/
inductive Spells : Written → Json → Prop
  | null : Spells .null .null
  | bool (b : Bool) : Spells (.bool b) (.bool b)
  | number (n : Number) : Spells (.number (some n)) (.num n)
  | text (s : String) : Spells (.text (some s)) (.str s)
  | array {items : List Written} {docs : List Json} (h : SpellsItems items docs) :
      Spells (.array items) (.arr docs)
  | object {members : List (Option String × Written)} {pairs docs : List (String × Json)}
      (h : SpellsMembers members pairs) (hperm : pairs.Perm docs) :
      Spells (.object members) (.obj docs)

inductive SpellsItems : List Written → List Json → Prop
  | nil : SpellsItems [] []
  | cons {item : Written} {doc : Json} {items : List Written} {docs : List Json}
      (h : Spells item doc) (hitems : SpellsItems items docs) :
      SpellsItems (item :: items) (doc :: docs)

inductive SpellsMembers : List (Option String × Written) → List (String × Json) → Prop
  | nil : SpellsMembers [] []
  | cons (key : String) {value : Written} {doc : Json} {members : List (Option String × Written)}
      {pairs : List (String × Json)} (h : Spells value doc)
      (hmembers : SpellsMembers members pairs) :
      SpellsMembers ((some key, value) :: members) ((key, doc) :: pairs)

end

mutual

theorem plain_of_spells : ∀ {w : Written} {doc : Json}, w.Spells doc → doc.Integral → w.Plain
  | _, _, .null, _ => trivial
  | _, _, .bool _, _ => trivial
  | _, _, .number _, ⟨i, hi, hfits⟩ => ⟨i, congrArg some hi, hfits⟩
  | _, _, .text _, _ => rfl
  | _, _, .array h, hdoc => plain_of_spellsItems h hdoc
  | _, _, .object h hperm, hdoc => by
    refine plain_of_spellsMembers h (Json.integralMembers_iff.2 fun member hmember ↦ ?_)
    exact Json.integral_obj.1 hdoc member (hperm.mem_iff.1 hmember)

theorem plain_of_spellsItems : ∀ {items : List Written} {docs : List Json},
    SpellsItems items docs → Json.IntegralItems docs → PlainItems items
  | _, _, .nil, _ => trivial
  | _, _, .cons h hitems, ⟨hdoc, hdocs⟩ =>
    ⟨plain_of_spells h hdoc, plain_of_spellsItems hitems hdocs⟩

theorem plain_of_spellsMembers : ∀ {members : List (Option String × Written)}
    {pairs : List (String × Json)}, SpellsMembers members pairs → Json.IntegralMembers pairs →
    PlainMembers members
  | _, _, .nil, _ => trivial
  | _, _, .cons _ h hmembers, ⟨hdoc, hdocs⟩ =>
    ⟨rfl, plain_of_spells h hdoc, plain_of_spellsMembers hmembers hdocs⟩

end

mutual

/-- A document in order is read from each of its spellings. -/
theorem value?_of_spells : ∀ {w : Written} {doc : Json} {depth : Nat}, w.Spells doc → doc.Ordered →
    doc.nesting ≤ depth → w.value? depth = some doc
  | _, _, _, .null, _, _ => by rw [value?]
  | _, _, _, .bool _, _, _ => by rw [value?]
  | _, _, _, .number _, _, _ => by rw [value?, Option.map_some]
  | _, _, _, .text _, _, _ => by rw [value?, Option.map_some]
  | _, _, 0, .array _, _, hdepth => absurd hdepth (Nat.not_succ_le_zero _)
  | _, _, depth + 1, .array h, hdoc, hdepth => by
    rw [value?, valueItems?_of_spells h hdoc (Nat.le_of_succ_le_succ hdepth), Option.map_some]
  | _, _, 0, .object _ _, _, hdepth => absurd hdepth (Nat.not_succ_le_zero _)
  | _, .obj docs, depth + 1, .object h hperm, hdoc, hdepth => by
    obtain ⟨hsorted, hordered⟩ := Json.ordered_obj.1 hdoc
    have hnesting := Json.nesting_obj_le.1 hdepth
    have hpairs : valueMembers? depth _ = some _ := valueMembers?_of_spells h
      (Json.orderedMembers_iff.2 fun member hmember ↦ hordered member (hperm.mem_iff.1 hmember))
      (Json.memberNesting_le.2 fun member hmember ↦ hnesting member (hperm.mem_iff.1 hmember))
    rw [value?, hpairs, Option.map_some, Dict.Sorted.ofList_eq_of_perm hsorted hperm]

theorem valueItems?_of_spells : ∀ {items : List Written} {docs : List Json} {depth : Nat},
    SpellsItems items docs → Json.OrderedItems docs → Json.itemNesting docs ≤ depth →
    valueItems? depth items = some docs
  | _, _, _, .nil, _, _ => by rw [valueItems?]
  | _, _, _, .cons h hitems, ⟨hdoc, hdocs⟩, hdepth => by
    obtain ⟨hle, hles⟩ := Nat.max_le.1 hdepth
    rw [valueItems?, value?_of_spells h hdoc hle, valueItems?_of_spells hitems hdocs hles]
    rfl

theorem valueMembers?_of_spells : ∀ {members : List (Option String × Written)}
    {pairs : List (String × Json)} {depth : Nat}, SpellsMembers members pairs →
    Json.OrderedMembers pairs → Json.memberNesting pairs ≤ depth →
    valueMembers? depth members = some pairs
  | _, _, _, .nil, _, _ => by rw [valueMembers?]
  | _, _, _, .cons key h hmembers, ⟨hdoc, hdocs⟩, hdepth => by
    obtain ⟨hle, hles⟩ := Nat.max_le.1 hdepth
    rw [valueMembers?, value?_of_spells h hdoc hle, valueMembers?_of_spells hmembers hdocs hles]
    rfl

end

/-! ## The spelling in the order of keys -/

mutual

/-- A document, written with its members in the order of their keys. -/
def ofJson : Json → Written
  | .null => .null
  | .bool b => .bool b
  | .num n => .number (some n)
  | .str s => .text (some s)
  | .arr items => .array (ofItems items)
  | .obj members => .object (ofMembers members)

def ofItems : List Json → List Written
  | [] => []
  | item :: items => ofJson item :: ofItems items

def ofMembers : List (String × Json) → List (Option String × Written)
  | [] => []
  | (key, value) :: members => (some key, ofJson value) :: ofMembers members

end

mutual

theorem spells_ofJson : ∀ doc : Json, (ofJson doc).Spells doc
  | .null => .null
  | .bool b => .bool b
  | .num n => .number n
  | .str s => .text s
  | .arr items => .array (spells_ofItems items)
  | .obj members => .object (spells_ofMembers members) (.refl members)

theorem spells_ofItems : ∀ items : List Json, SpellsItems (ofItems items) items
  | [] => .nil
  | item :: items => .cons (spells_ofJson item) (spells_ofItems items)

theorem spells_ofMembers : ∀ members : List (String × Json),
    SpellsMembers (ofMembers members) members
  | [] => .nil
  | (key, value) :: members => .cons key (spells_ofJson value) (spells_ofMembers members)

end

mutual

theorem render_ofJson : ∀ doc : Json, (ofJson doc).render = doc.render
  | .null => rfl
  | .bool true => rfl
  | .bool false => rfl
  | .num _ => rfl
  | .str _ => rfl
  | .arr items => by rw [ofJson, render, Json.render, renderItems_ofItems]
  | .obj members => by rw [ofJson, render, Json.render, renderMembers_ofMembers]

theorem renderItems_ofItems : ∀ items : List Json,
    renderItems (ofItems items) = Json.renderItems items
  | [] => rfl
  | [item] => render_ofJson item
  | item :: next :: items => by
    change (ofJson item).render ++ ',' :: renderItems (ofItems (next :: items)) = _
    rw [render_ofJson, renderItems_ofItems]
    rfl

theorem renderMembers_ofMembers : ∀ members : List (String × Json),
    renderMembers (ofMembers members) = Json.renderMembers members
  | [] => rfl
  | [(key, value)] => by
    change Json.renderText key ++ ':' :: (ofJson value).render = _
    rw [render_ofJson]
    rfl
  | (key, value) :: next :: members => by
    change Json.renderText key ++ ':' :: (ofJson value).render ++
      ',' :: renderMembers (ofMembers (next :: members)) = _
    rw [render_ofJson, renderMembers_ofMembers]
    rfl

end

end Written

end AgentSession
