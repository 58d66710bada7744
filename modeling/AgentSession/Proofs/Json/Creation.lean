import AgentSession.Proofs.Json.Inverse
/-!
# Creating what is missing on the way

With `create`, adding makes an empty object of every member that is missing on its way. It does so
while it walks, before it is known whether the rest of the way can be gone. This module shows that
nothing depends on that: adding with `create` succeeds wherever it succeeds without, with the same
result, and where it fails it leaves nothing behind (`Json.add_conservative`).

## Where a walk stops

Either all segments lead somewhere, or there is a first that does not (`Json.exists_stop`). In the
first case there is nothing to create. In the second one the walk has come to a part that it cannot
enter. If that is an object, the segment is a key it does not have, and from there on the walk goes
through objects that it has just created, where nothing can fail: what is added arrives inside a
`Json.chain` of objects, all under this one key (`Json.editAt_of_missing`). If it is no object, the
walk fails, and has not created anything.
-/

namespace AgentSession.Json

variable {α : Type} {create : Bool} {change : String → Json → Edited α}
  {doc part value left : Json} {key : String} {front rest segments : List String}
  {members : Dict Json}

/-! ## Where a walk stops -/

/-- Segments lead to a part, or there is a first one that leads nowhere. -/
theorem exists_stop (doc : Json) (segments : List String) :
    (∃ part, doc.follow segments = .ok part) ∨
      ∃ front key rest part, segments = front ++ key :: rest ∧ doc.follow front = .ok part ∧
        enter? false key part = none := by
  induction segments generalizing doc with
  | nil => exact .inl ⟨doc, rfl⟩
  | cons segment segments ih =>
    cases henter : enter? false segment doc with
    | none => exact .inr ⟨[], segment, segments, doc, rfl, rfl, henter⟩
    | some child =>
      rcases ih child with ⟨part, hpart⟩ | ⟨front, key, rest, part, rfl, hfront, hkey⟩
      · exact .inl ⟨part, follow_cons_ok_iff.2 ⟨child, henter, hpart⟩⟩
      · exact .inr ⟨segment :: front, key, rest, part, rfl,
          follow_cons_ok_iff.2 ⟨child, henter, hfront⟩, hkey⟩

/-- A part that cannot be entered has no member with that key, or is no object. In the latter case
it cannot be entered with `create` either. -/
theorem exists_obj_or_enter?_eq_none (h : enter? false key part = none) :
    (∃ members, part = .obj members ∧ Dict.get? members key = none) ∨
      ∀ create, enter? create key part = none := by
  cases part with
  | obj members => exact .inl ⟨members, rfl, h⟩
  | _ => exact .inr fun _ ↦ h

/-! ## Objects that are created -/

/-- Objects one inside the other, each with a single member, and a document in the innermost. -/
def chain : List String → Json → Json
  | [], value => value
  | key :: keys, value => .obj [(key, chain keys value)]

/-- What a chain was made for is found in it. -/
theorem follow_chain (keys : List String) (value : Json) :
    (chain keys value).follow keys = .ok value := by
  induction keys with
  | nil => rfl
  | cons key keys ih => simp [chain, follow, ih]

/-- A walk that begins in an empty object creates a chain. -/
theorem editAt_empty (value : Json) (key : String) (keys : List String) :
    empty.editAt true (addChild value) (key :: keys) = (.ok (), chain (key :: keys) value) := by
  induction keys generalizing key with
  | nil => rfl
  | cons next keys ih =>
    have henter : enter? true key empty = some empty := get?_membersFor true key []
    have hput (part : Json) : putPart true key part empty = .obj [(key, part)] := by
      simp [putPart, empty, membersFor, Dict.ensure, Dict.has, Dict.insert, Dict.replace]
    rw [editAt_of_enter? henter, ih, hput]
    rfl

/-- Where a member is missing, a walk puts a chain in its place. -/
theorem editAt_of_missing (h : Dict.get? members key = none) (value : Json) (next : String)
    (rest : List String) :
    (obj members).editAt true (addChild value) (key :: next :: rest) =
      (.ok (), .obj (Dict.insert members key (chain (next :: rest) value))) := by
  have henter : enter? true key (.obj members) = some empty := by
    rw [enter?, get?_membersFor, h, Option.none_or, if_pos rfl]
  have hput (part : Json) :
      putPart true key part (.obj members) = .obj (Dict.insert members key part) := by
    rw [putPart, membersFor, if_pos rfl, Dict.ensure, Dict.has, h, Option.isSome_none,
      if_neg Bool.false_ne_true, Dict.replace_insert_self]
  rw [editAt_of_enter? henter, editAt_empty, hput]

/-! ## Additions that create -/

/-- An addition that succeeds does so without creating anything, or puts a chain under a key that is
missing in an object on its way. -/
theorem editAt_true_cases {last : String}
    (h : doc.editAt true (addChild value) (segments ++ [last]) = (.ok (), left)) :
    doc.editAt false (addChild value) (segments ++ [last]) = (.ok (), left) ∨
      ∃ front key rest members, segments = front ++ key :: rest ∧
        doc.follow front = .ok (.obj members) ∧ Dict.get? members key = none ∧
        doc.put front (.obj (Dict.insert members key (chain (rest ++ [last]) value))) = left := by
  rcases exists_stop doc segments with ⟨part, hpart⟩ | ⟨front, key, rest, part, rfl, hfront, hkey⟩
  · left
    rw [editAt_of_follow hpart] at h ⊢
    exact h
  · obtain ⟨next, after, hnext⟩ := List.exists_cons_of_ne_nil
      (List.append_ne_nil_of_right_ne_nil rest (List.cons_ne_nil last []))
    rw [List.append_assoc, List.cons_append, hnext, editAt_append hfront] at h
    rcases exists_obj_or_enter?_eq_none hkey with ⟨members, rfl, hmissing⟩ | hnone
    · right
      rw [editAt_of_missing hmissing, ← hnext] at h
      exact ⟨front, key, rest, members, rfl, hfront, hmissing, congrArg Prod.snd h⟩
    · obtain ⟨refused, hrefused⟩ :=
        editAt_of_enter?_eq_none (hnone true) (addChild value) next after
      rw [hrefused] at h
      cases h

/-- A value under a key that was missing is noticed only by pointers that lead through that key. -/
theorem follow_put_insert (hfront : doc.follow front = .ok (.obj members))
    (hmissing : Dict.get? members key = none) (value : Json) {others : List String} {found : Json}
    (hfound : doc.follow others = .ok found) (hothers : ¬others <+: front) :
    (doc.put front (.obj (Dict.insert members key value))).follow others = .ok found := by
  by_cases hbelow : front <+: others
  · -- the pointer leads through the object, and on through a key that was there
    obtain ⟨after, rfl⟩ := hbelow
    cases after with
    | nil =>
      rw [List.append_nil] at hothers
      exact absurd List.prefix_rfl hothers
    | cons other after =>
      rw [follow_append_of_follow hfront] at hfound
      obtain ⟨child, henter, hchild⟩ := follow_cons_ok_iff.1 hfound
      have hmember : Dict.get? members other = some child := henter
      have hne : key ≠ other := by
        rintro rfl
        rw [hmissing] at hmember
        cases hmember
      rw [follow_append_of_follow (follow_put hfront _)]
      refine follow_cons_ok_iff.2 ⟨child, ?_, hchild⟩
      exact (Dict.get?_insert_of_ne members hne value).trans hmember
  · rw [follow_put_of_apart hfront ⟨hbelow, hothers⟩, hfound]

/-- **Creating is conservative.** Let a document be added at a pointer.

* If this succeeds without creating members, then creating them makes no difference.
* If it succeeds only with creating them, there is one object on the way that has no member with the
  next key. It gets one, in which there are objects with a single member each down to the document
  that is added. Everything else that could be found is still found, at all pointers but those that
  the pointer begins with.
* If it fails although members are created, none has been. -/
theorem add_conservative (doc : Json) (p : Pointer) (value : Json) :
    (∀ left, doc.add p value false = (.ok (), left) → doc.add p value true = (.ok (), left)) ∧
    (∀ left, doc.add p value true = (.ok (), left) →
      (¬∃ other, doc.add p value false = (.ok (), other)) →
        ∃ front key rest members, p.segments = front ++ key :: rest ∧ rest ≠ [] ∧
          doc.get ⟨front⟩ = .ok (.obj members) ∧ Dict.get? members key = none ∧
          doc.replace ⟨front⟩ (.obj (Dict.insert members key (chain rest value))) =
            (.ok (), left) ∧
          ∀ q found, doc.get q = .ok found → ¬q.segments <+: p.segments →
            left.get q = .ok found) ∧
    ∀ refused left, doc.add p value true = (.error refused, left) → left = doc := by
  refine ⟨fun left hadd ↦ ?_, fun left hadd honly ↦ ?_, fun refused left ↦ add_eq_of_error⟩
  · by_cases hroot : p = .root
    · subst hroot
      exact hadd
    · obtain ⟨container, last, rfl⟩ := Pointer.exists_part_iff.2 hroot
      rw [add_part] at hadd ⊢
      obtain ⟨object, object', hobject, hchange, hleft⟩ := editAt_ok_iff.1 hadd
      rw [editAt_of_follow hobject, hchange, ← hleft]
  · by_cases hroot : p = .root
    · subst hroot
      exact absurd ⟨left, hadd⟩ honly
    · obtain ⟨container, last, rfl⟩ := Pointer.exists_part_iff.2 hroot
      rw [add_part] at hadd honly
      rcases editAt_true_cases hadd with
        hwithout | ⟨front, key, rest, members, hp, hfront, hkey, rfl⟩
      · exact absurd ⟨left, hwithout⟩ honly
      · refine ⟨front, key, rest ++ [last], members, ?_, ?_, hfront, hkey, ?_, ?_⟩
        · rw [Pointer.part, hp, List.append_assoc, List.cons_append]
        · exact List.append_ne_nil_of_right_ne_nil _ (List.cons_ne_nil _ _)
        · exact replace_ok_iff.2 ⟨⟨_, hfront⟩, rfl⟩
        · intro q found hfound hq
          refine follow_put_insert hfront hkey _ hfound fun hbelow ↦ hq ?_
          rw [Pointer.part, hp, List.append_assoc]
          exact hbelow.trans (List.prefix_append _ _)

/-- An item of an array is an object without members. A value goes there with and without creating
members. It goes one object further down only with creating one, and the other item is still found.
Below a boolean it goes neither way. -/
theorem add_conservative_items :
    let doc : Json := .obj [("a", .arr [.obj [], .int 1]), ("b", .bool true)]
    let added : Json := .obj [("a", .arr [.obj [("k", .null)], .int 1]), ("b", .bool true)]
    let left : Json :=
      .obj [("a", .arr [.obj [("k", .obj [("l", .null)])], .int 1]), ("b", .bool true)]
    doc.add ⟨["a", "0", "k"]⟩ .null false = (.ok (), added) ∧
      doc.add ⟨["a", "0", "k"]⟩ .null true = (.ok (), added) ∧
      (¬∃ other, doc.add ⟨["a", "0", "k", "l"]⟩ .null false = (.ok (), other)) ∧
      doc.add ⟨["a", "0", "k", "l"]⟩ .null true = (.ok (), left) ∧
      doc.get ⟨["a", "1"]⟩ = .ok (.int 1) ∧ left.get ⟨["a", "1"]⟩ = .ok (.int 1) ∧
      (doc.add ⟨["b", "k", "l"]⟩ .null true).2 = doc := by
  intro doc added left
  have hadded : doc.add ⟨["a", "0", "k"]⟩ .null false = (.ok (), added) := by decide
  have honly : ¬∃ other, doc.add ⟨["a", "0", "k", "l"]⟩ .null false = (.ok (), other) := by
    have hmissing : doc.add ⟨["a", "0", "k", "l"]⟩ .null false = (.error .notFound, doc) := by
      decide
    rintro ⟨other, hother⟩
    rw [hmissing] at hother
    cases hother
  have hleft : doc.add ⟨["a", "0", "k", "l"]⟩ .null true = (.ok (), left) := by decide
  have hitem : doc.get ⟨["a", "1"]⟩ = .ok (.int 1) := by decide
  have hrefused : (doc.add ⟨["b", "k", "l"]⟩ .null true).1 = .error .throughScalar := by decide
  obtain ⟨-, -, -, -, -, -, -, -, -, hkept⟩ :=
    (add_conservative doc ⟨["a", "0", "k", "l"]⟩ .null).2.1 left hleft honly
  refine ⟨hadded, ?_, honly, hleft, hitem, hkept _ _ hitem (by decide), ?_⟩
  · exact (add_conservative doc ⟨["a", "0", "k"]⟩ .null).1 added hadded
  · exact (add_conservative doc ⟨["b", "k", "l"]⟩ .null).2.2 _ _ (Prod.ext hrefused rfl)

end AgentSession.Json
