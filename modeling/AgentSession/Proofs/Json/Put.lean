import AgentSession.Proofs.Json.Edit
import AgentSession.Proofs.Text.Decimal
/-!
# Putting a document into a place

`Json.put` goes down through the parts that segments lead to, puts a document into the place at
their end, and rebuilds what it went through. It is what all edits have in common: an edit at a
pointer changes one container and puts it back where it was found (`Json.editAt_of_follow`), so what
is shown of `Json.put` and of a change of one container need not be shown of walks.

## The laws

What was put into a place is found there (`Json.follow_put`), what was put last stays
(`Json.put_put`), and to put back what is there changes nothing (`Json.put_eq_self`). Places that
lie apart do not notice each other (`Json.follow_put_of_apart`, `Json.put_comm`). All are shown by
induction on the segments, from the laws of one step.

## Segments that differ

Two segments that differ lead to different parts. In an object they are different keys. In an array
this is because a position has one numeral only (`Pointer.index_inj`).
-/

namespace AgentSession

/-! ## The position that a segment names -/

namespace Pointer

variable {segment : String} {length i : Nat} {atEnd : Bool}

theorem index_eq_ok_iff :
    index segment length atEnd = .ok i ↔
      ((segment = "-" ∧ i = length) ∨
        (Decimal.canonical segment.toList = some i ∧ i ≤ Decimal.maxWord)) ∧
      (i < length ∨ (atEnd = true ∧ i = length)) := by
  have hbound (j : Nat) :
      (if j < length ∨ (atEnd = true ∧ j = length) then Except.ok j
        else .error (PathError.outOfBounds segment length)) = Except.ok i ↔
      j = i ∧ (i < length ∨ (atEnd = true ∧ i = length)) := by
    split
    · rename_i hj
      rw [Except.ok.injEq]
      exact ⟨fun h ↦ ⟨h, h ▸ hj⟩, And.left⟩
    · rename_i hj
      simp only [reduceCtorEq, false_iff]
      rintro ⟨rfl, hi⟩
      exact hj hi
  simp only [index_eq, position]
  by_cases hdash : segment = "-"
  · have hnone : Decimal.canonical segment.toList = none := by rw [hdash]; rfl
    rw [if_pos hdash, hnone]
    dsimp only
    rw [hbound]
    simp [hdash, eq_comm]
  · rw [if_neg hdash]
    cases Decimal.canonical segment.toList with
    | none => simp [hdash]
    | some j =>
      by_cases hword : j ≤ Decimal.maxWord
      · simp only [if_pos hword, hbound, hdash, false_and, false_or, Option.some.injEq]
        constructor
        · rintro ⟨rfl, hi⟩
          exact ⟨⟨rfl, hword⟩, hi⟩
        · rintro ⟨⟨rfl, -⟩, hi⟩
          exact ⟨rfl, hi⟩
      · simp only [if_neg hword, reduceCtorEq, hdash, false_and, false_or, Option.some.injEq,
          false_iff]
        rintro ⟨⟨rfl, hi⟩, -⟩
        exact hword hi

/-- An item is named by the numeral of its position and by nothing else. -/
theorem index_item_iff :
    index segment length false = .ok i ↔
      Decimal.canonical segment.toList = some i ∧ i ≤ Decimal.maxWord ∧ i < length := by
  rw [index_eq_ok_iff]
  constructor
  · rintro ⟨⟨-, rfl⟩ | ⟨hnumeral, hword⟩, hlt | ⟨hend, -⟩⟩
    · exact absurd hlt (Nat.lt_irrefl _)
    · cases hend
    · exact ⟨hnumeral, hword, hlt⟩
    · cases hend
  · rintro ⟨hnumeral, hword, hlt⟩
    exact ⟨.inr ⟨hnumeral, hword⟩, .inl hlt⟩

theorem index_le (h : index segment length atEnd = .ok i) : i ≤ length := by
  obtain ⟨-, hlt | ⟨-, heq⟩⟩ := index_eq_ok_iff.1 h
  · exact Nat.le_of_lt hlt
  · exact Nat.le_of_eq heq

/-- The numeral of a place to insert at names the item that is inserted there. -/
theorem index_item_of_place (h : index segment length true = .ok i) (hdash : segment ≠ "-") :
    index segment (length + 1) false = .ok i := by
  obtain ⟨⟨heq, -⟩ | ⟨hnumeral, hword⟩, -⟩ := index_eq_ok_iff.1 h
  · exact absurd heq hdash
  · exact index_item_iff.2 ⟨hnumeral, hword, Nat.lt_succ_of_le (index_le h)⟩

/-- Different segments name different items. -/
theorem index_inj {other : String} (h : index segment length false = .ok i)
    (hother : index other length false = .ok i) : segment = other := by
  rw [index_item_iff] at h hother
  exact String.toList_injective (Decimal.eq_of_canonical h.1 hother.1)

end Pointer

namespace Json

variable {α : Type} {create : Bool} {change : String → Json → Edited α}
  {doc part value left : Json} {segment other last : String} {segments parents : List String}

/-! ## One step -/

theorem follow_cons (doc : Json) (segment : String) (rest : List String) :
    doc.follow (segment :: rest) = (doc.follow [segment]).bind fun part ↦ part.follow rest := by
  cases doc with
  | obj members =>
    rw [follow, follow]
    cases Dict.get? members segment with
    | none => rfl
    | some child => rfl
  | arr items =>
    rw [follow, follow]
    cases Pointer.index segment items.length false with
    | error e => rfl
    | ok i =>
      dsimp only
      cases items[i]? with
      | none => rfl
      | some child => rfl
  | _ => rfl

theorem follow_singleton_eq_ok_iff :
    doc.follow [segment] = .ok part ↔ enter? false segment doc = some part := by
  rw [follow_cons_ok_iff]
  simp [follow]

/-- What can be entered is a member of an object, or an item of an array. -/
theorem enter?_cases (h : enter? false segment doc = some part) :
    (∃ members, doc = .obj members ∧ Dict.get? members segment = some part) ∨
      ∃ items i, doc = .arr items ∧ Pointer.index segment items.length false = .ok i ∧
        items[i]? = some part := by
  cases doc with
  | obj members => exact .inl ⟨members, rfl, h⟩
  | arr items =>
    rw [enter?] at h
    cases hindex : Pointer.index segment items.length false with
    | error e =>
      rw [hindex] at h
      cases h
    | ok i =>
      rw [hindex] at h
      exact .inr ⟨items, i, rfl, hindex, h⟩
  | _ => cases h

theorem putPart_obj (segment : String) (part : Json) (members : Dict Json) :
    putPart false segment part (.obj members) = .obj (Dict.replace members segment part) := rfl

theorem putPart_arr {items : List Json} {i : Nat}
    (h : Pointer.index segment items.length false = .ok i) (part : Json) :
    putPart false segment part (.arr items) = .arr (items.set i part) := by
  rw [putPart, h]

/-- Where there is a part, no member is created, whether asked for or not. -/
theorem enter?_of_there (h : enter? false segment doc = some part) (create : Bool) :
    enter? create segment doc = some part := by
  obtain ⟨members, rfl, hpart⟩ | ⟨items, i, rfl, -, -⟩ := enter?_cases h
  · rw [enter?, get?_membersFor, hpart, Option.some_or]
  · exact h

theorem putPart_of_there (h : enter? false segment doc = some part) (create : Bool) (value : Json) :
    putPart create segment value doc = putPart false segment value doc := by
  obtain ⟨members, rfl, hpart⟩ | ⟨items, i, rfl, -, -⟩ := enter?_cases h
  · rw [putPart, membersFor_eq_self hpart, putPart_obj]
  · rfl

/-- Of two parts put into one place, the second stays. -/
theorem putPart_putPart (h : enter? false segment doc = some part) (a b : Json) :
    putPart false segment b (putPart false segment a doc) = putPart false segment b doc := by
  obtain ⟨members, rfl, -⟩ | ⟨items, i, rfl, hindex, -⟩ := enter?_cases h
  · rw [putPart_obj, putPart_obj, putPart_obj, Dict.replace_replace_self]
  · have hlength : Pointer.index segment (items.set i a).length false = .ok i := by
      rw [List.length_set, hindex]
    rw [putPart_arr hindex, putPart_arr hlength, putPart_arr hindex, List.set_set]

/-- A step along another segment leads where it led before, or fails as it did. -/
theorem follow_putPart_of_ne (h : enter? false segment doc = some part) (hne : segment ≠ other)
    (value : Json) : (putPart false segment value doc).follow [other] = doc.follow [other] := by
  obtain ⟨members, rfl, -⟩ | ⟨items, i, rfl, hindex, -⟩ := enter?_cases h
  · rw [putPart_obj, follow, follow, Dict.get?_replace_of_ne hne]
  · rw [putPart_arr hindex, follow, follow, List.length_set]
    cases hother : Pointer.index other items.length false with
    | error e => rfl
    | ok j =>
      have hij : i ≠ j := by
        rintro rfl
        exact hne (Pointer.index_inj hindex hother)
      dsimp only
      rw [List.getElem?_set_ne hij]

theorem enter?_putPart_of_ne (h : enter? false segment doc = some part) (hne : segment ≠ other)
    (value : Json) {found : Json} (hother : enter? false other doc = some found) :
    enter? false other (putPart false segment value doc) = some found := by
  rw [← follow_singleton_eq_ok_iff] at hother ⊢
  rw [follow_putPart_of_ne h hne, hother]

/-- Parts may be put into different places in either order. -/
theorem putPart_comm (h : enter? false segment doc = some part) (hne : segment ≠ other)
    {found : Json} (hother : enter? false other doc = some found) (a b : Json) :
    putPart false other b (putPart false segment a doc) =
      putPart false segment a (putPart false other b doc) := by
  obtain ⟨members, rfl, -⟩ | ⟨items, i, rfl, hi, -⟩ := enter?_cases h
  · rw [putPart_obj, putPart_obj, putPart_obj, putPart_obj, Dict.replace_comm hne]
  · obtain ⟨_, ⟨⟩, -⟩ | ⟨_, j, ⟨⟩, hj, -⟩ := enter?_cases hother
    have hij : i ≠ j := by
      rintro rfl
      exact hne (Pointer.index_inj hi hj)
    have hi' : Pointer.index segment (items.set j b).length false = .ok i := by
      rw [List.length_set, hi]
    have hj' : Pointer.index other (items.set i a).length false = .ok j := by
      rw [List.length_set, hj]
    rw [putPart_arr hi, putPart_arr hj', putPart_arr hj, putPart_arr hi', List.set_comm a b hij]

/-! ## Putting a document into a place -/

/-- The document with another one in the place that segments lead to. It stays as it is if they lead
nowhere. -/
def put (doc : Json) : List String → Json → Json
  | [], value => value
  | segment :: rest, value =>
    match enter? false segment doc with
    | some part => putPart false segment (part.put rest value) doc
    | none => doc

theorem put_cons {rest : List String} (h : enter? false segment doc = some part) (value : Json) :
    doc.put (segment :: rest) value = putPart false segment (part.put rest value) doc := by
  rw [put, h]

/-- What is put into a place is found there. -/
theorem follow_put (h : doc.follow segments = .ok part) (value : Json) :
    (doc.put segments value).follow segments = .ok value := by
  induction segments generalizing doc with
  | nil => rfl
  | cons segment rest ih =>
    obtain ⟨child, henter, hchild⟩ := follow_cons_ok_iff.1 h
    rw [put_cons henter]
    exact follow_cons_ok_iff.2 ⟨_, enter?_putPart henter, ih hchild⟩

/-- Of two documents put into one place, the second stays. -/
theorem put_put (h : doc.follow segments = .ok part) (a b : Json) :
    (doc.put segments a).put segments b = doc.put segments b := by
  induction segments generalizing doc with
  | nil => rfl
  | cons segment rest ih =>
    obtain ⟨child, henter, hchild⟩ := follow_cons_ok_iff.1 h
    rw [put_cons henter, put_cons (enter?_putPart henter), put_cons henter, ih hchild,
      putPart_putPart henter]

/-- To put back what is there changes nothing. -/
theorem put_eq_self (h : doc.follow segments = .ok value) : doc.put segments value = doc := by
  induction segments generalizing doc with
  | nil => exact (Except.ok.inj h).symm
  | cons segment rest ih =>
    obtain ⟨child, henter, hchild⟩ := follow_cons_ok_iff.1 h
    rw [put_cons henter, ih hchild, putPart_eq_self henter]

/-- Segments that lie apart lead where they led before, or fail as they did. -/
theorem follow_put_of_apart {others : List String} (h : doc.follow segments = .ok part)
    (hapart : ¬ segments <+: others ∧ ¬ others <+: segments) (value : Json) :
    (doc.put segments value).follow others = doc.follow others := by
  induction segments generalizing doc others with
  | nil => exact absurd (List.nil_prefix) hapart.1
  | cons segment rest ih =>
    obtain ⟨child, henter, hchild⟩ := follow_cons_ok_iff.1 h
    cases others with
    | nil => exact absurd (List.nil_prefix) hapart.2
    | cons other others =>
      rw [put_cons henter, follow_cons, follow_cons doc]
      by_cases hsame : segment = other
      · -- the two part ways further down
        subst hsame
        have hbelow : ¬ rest <+: others ∧ ¬ others <+: rest := by
          simpa [List.cons_prefix_cons] using hapart
        rw [follow_singleton_eq_ok_iff.2 (enter?_putPart henter),
          follow_singleton_eq_ok_iff.2 henter]
        exact ih hchild hbelow
      · rw [follow_putPart_of_ne henter hsame]

/-- Documents may be put into places that lie apart in either order. -/
theorem put_comm {others : List String} {found : Json} (h : doc.follow segments = .ok part)
    (hother : doc.follow others = .ok found)
    (hapart : ¬ segments <+: others ∧ ¬ others <+: segments) (a b : Json) :
    (doc.put segments a).put others b = (doc.put others b).put segments a := by
  induction segments generalizing doc others with
  | nil => exact absurd (List.nil_prefix) hapart.1
  | cons segment rest ih =>
    obtain ⟨child, henter, hchild⟩ := follow_cons_ok_iff.1 h
    cases others with
    | nil => exact absurd (List.nil_prefix) hapart.2
    | cons other others =>
      obtain ⟨child', henter', hchild'⟩ := follow_cons_ok_iff.1 hother
      by_cases hsame : segment = other
      · subst hsame
        obtain rfl : child = child' := Option.some.inj (henter.symm.trans henter')
        have hbelow : ¬ rest <+: others ∧ ¬ others <+: rest := by
          simpa [List.cons_prefix_cons] using hapart
        rw [put_cons henter, put_cons henter, put_cons (enter?_putPart henter),
          put_cons (enter?_putPart henter), putPart_putPart henter, putPart_putPart henter,
          ih hchild hchild' hbelow]
      · rw [put_cons henter, put_cons (enter?_putPart_of_ne henter hsame _ henter'),
          put_cons henter', put_cons (enter?_putPart_of_ne henter' (Ne.symm hsame) _ henter),
          putPart_comm henter hsame henter']

/-! ## Edits -/

theorem follow_append (doc : Json) (segments rest : List String) :
    doc.follow (segments ++ rest) =
      (doc.follow segments).bind fun part ↦ part.follow rest := by
  induction segments generalizing doc with
  | nil => rfl
  | cons segment segments ih =>
    rw [List.cons_append, follow_cons, follow_cons doc segment segments]
    cases doc.follow [segment] with
    | error e => rfl
    | ok part => exact ih part

/-- More segments lead on from where the first ones lead to. -/
theorem follow_append_of_follow (h : doc.follow segments = .ok part) (rest : List String) :
    doc.follow (segments ++ rest) = part.follow rest := by
  rw [follow_append, h]
  rfl

theorem put_append (h : doc.follow segments = .ok part) (rest : List String) (value : Json) :
    doc.put (segments ++ rest) value = doc.put segments (part.put rest value) := by
  induction segments generalizing doc with
  | nil =>
    obtain rfl := Except.ok.inj h
    rfl
  | cons segment segments ih =>
    obtain ⟨child, henter, hchild⟩ := follow_cons_ok_iff.1 h
    rw [List.cons_append, put_cons henter, put_cons henter, ih hchild]

/-- A walk passes through what is there and goes on from the part it has come to, which it puts
back. This is so whether or not members may be created, since none is missing on the way. -/
theorem editAt_append (h : doc.follow parents = .ok part) (create : Bool)
    (change : String → Json → Edited α) (segment : String) (rest : List String) :
    doc.editAt create change (parents ++ segment :: rest) =
      ((part.editAt create change (segment :: rest)).1,
        doc.put parents (part.editAt create change (segment :: rest)).2) := by
  induction parents generalizing doc with
  | nil =>
    obtain rfl := Except.ok.inj h
    rfl
  | cons first parents ih =>
    obtain ⟨child, henter, hchild⟩ := follow_cons_ok_iff.1 h
    obtain ⟨next, after, hnext⟩ := List.exists_cons_of_ne_nil
      (List.append_ne_nil_of_right_ne_nil parents (List.cons_ne_nil segment rest))
    have hpart := ih hchild
    rw [hnext] at hpart
    rw [List.cons_append, hnext, editAt_of_enter? (enter?_of_there henter create), hpart,
      putPart_of_there henter, put_cons henter]

/-- An edit changes the container that all segments but the last lead to, and puts it back. -/
theorem editAt_of_follow (h : doc.follow parents = .ok part) (create : Bool)
    (change : String → Json → Edited α) (last : String) :
    doc.editAt create change (parents ++ [last]) =
      ((change last part).1, doc.put parents (change last part).2) :=
  editAt_append h create change last []

/-- Where no members are created, an edit succeeds only if there is a container to change. -/
theorem exists_follow_of_editAt {a : α}
    (h : doc.editAt false change (parents ++ [last]) = (.ok a, left)) :
    ∃ part, doc.follow parents = .ok part := by
  induction parents generalizing doc left with
  | nil => exact ⟨doc, rfl⟩
  | cons segment rest ih =>
    obtain ⟨next, after, hnext⟩ := List.exists_cons_of_ne_nil
      (List.append_ne_nil_of_right_ne_nil rest (List.cons_ne_nil last []))
    rw [List.cons_append, hnext] at h
    obtain ⟨child, child', henter, hchild, -⟩ := editAt_cons_ok_iff.1 h
    rw [← hnext] at hchild
    obtain ⟨part, hpart⟩ := ih hchild
    exact ⟨part, follow_cons_ok_iff.2 ⟨child, henter, hpart⟩⟩

/-- What an edit does that succeeds: it changes a container and puts it back. -/
theorem editAt_ok_iff {a : α} :
    doc.editAt false change (parents ++ [last]) = (.ok a, left) ↔
      ∃ part part', doc.follow parents = .ok part ∧ change last part = (.ok a, part') ∧
        doc.put parents part' = left := by
  constructor
  · intro h
    obtain ⟨part, hpart⟩ := exists_follow_of_editAt h
    rw [editAt_of_follow hpart, Prod.mk.injEq] at h
    exact ⟨part, _, hpart, Prod.ext h.1 rfl, h.2⟩
  · rintro ⟨part, part', hpart, hchange, rfl⟩
    rw [editAt_of_follow hpart, hchange]

end Json

end AgentSession
