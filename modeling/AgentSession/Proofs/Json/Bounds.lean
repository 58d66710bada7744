import AgentSession.Failure
import AgentSession.Proofs.Json.Put
/-!
# Positions within arrays

A segment that leads into an array is read as a position, and the array is then accessed there: an
item is looked at, replaced or taken out, or a document is put in front of it. This module says
which texts are positions, and that no position that was read lies outside the array.

## What it means to be within

The operations on lists that the walks use are total: to look at an item that is not there gives
nothing, and to change one changes nothing. So they would hide an access outside the array. Here the
walks and the patches are written a second time with operations that demand the position to be there
(`Json.getWithin`, `Patch.applyWithin`), and that give nothing at all once a demand is not met. That
they never give nothing, and otherwise the same, is shown along the walks, from the one fact on
positions that each access needs (`Pointer.lt_of_index_item`, `Pointer.index_le`).
-/

namespace AgentSession

/-! ## Texts that are positions -/

theorem Decimal.canonical_toList_eq_some_iff {s : String} {i : Nat} :
    canonical s.toList = some i ↔ s = Nat.repr i := by
  rw [canonical_eq_some_iff, ← Nat.toList_repr, String.toList_inj]

namespace Pointer

variable {segment other : String} {length i j : Nat} {atEnd atEnd' : Bool} {refused : PathError}

/-- A position is told by its numeral if there is an item, or if it is the place after
the last item and that counts; this place is also told by `-`. -/
theorem index_eq_ok_iff_repr :
    index segment length atEnd = .ok i ↔
      (segment = Nat.repr i ∧ i ≤ Decimal.maxWord ∧ (i < length ∨ (atEnd = true ∧ i ≤ length))) ∨
        (segment = "-" ∧ atEnd = true ∧ i = length) := by
  rw [index_eq_ok_iff, Decimal.canonical_toList_eq_some_iff]
  constructor
  · rintro ⟨⟨hdash, rfl⟩ | ⟨hnumeral, hword⟩, hlt | ⟨hend, hi⟩⟩
    · exact absurd hlt (Nat.lt_irrefl _)
    · exact .inr ⟨hdash, hend, rfl⟩
    · exact .inl ⟨hnumeral, hword, .inl hlt⟩
    · exact .inl ⟨hnumeral, hword, .inr ⟨hend, Nat.le_of_eq hi⟩⟩
  · rintro (⟨hnumeral, hword, hlt | ⟨hend, hle⟩⟩ | ⟨hdash, hend, rfl⟩)
    · exact ⟨.inr ⟨hnumeral, hword⟩, .inl hlt⟩
    · exact ⟨.inr ⟨hnumeral, hword⟩, (Nat.lt_or_eq_of_le hle).imp_right fun hi ↦ ⟨hend, hi⟩⟩
    · exact ⟨.inl ⟨hdash, rfl⟩, .inr ⟨hend, rfl⟩⟩

/-- Why a segment is refused: it is no numeral, its number is no word, or there is no such place. -/
inductive Refused (segment : String) (length : Nat) (atEnd : Bool) : PathError → Prop
  | invalid (hdash : segment ≠ "-") (hnumeral : ∀ i, segment ≠ Nat.repr i) :
      Refused segment length atEnd (.invalidIndex segment)
  | huge {i : Nat} (hnumeral : segment = Nat.repr i) (hi : Decimal.maxWord < i) :
      Refused segment length atEnd .hugeIndex
  | outside {i : Nat} (hnumeral : segment = Nat.repr i) (hi : i ≤ Decimal.maxWord)
      (hplace : ¬(i < length ∨ (atEnd = true ∧ i = length))) :
      Refused segment length atEnd (.outOfBounds segment length)
  | noEnd (hdash : segment = "-") (hend : atEnd = false) :
      Refused segment length atEnd (.outOfBounds segment length)

theorem dash_ne_repr (i : Nat) : "-" ≠ Nat.repr i := by
  intro h
  have hnone : Decimal.canonical "-".toList = none := rfl
  rw [Decimal.canonical_toList_eq_some_iff.2 h] at hnone
  cases hnone

theorem refused_of_index (h : index segment length atEnd = .error refused) :
    Refused segment length atEnd refused := by
  rw [index_eq, position] at h
  by_cases hdash : segment = "-"
  · rw [if_pos hdash] at h
    dsimp only at h
    split at h
    · cases h
    · rename_i hplace
      cases h
      exact .noEnd hdash (Bool.eq_false_iff.2 fun hend ↦ hplace (.inr ⟨hend, rfl⟩))
  · rw [if_neg hdash] at h
    cases hcanonical : Decimal.canonical segment.toList with
    | none =>
      rw [hcanonical] at h
      cases h
      refine .invalid hdash fun i hi ↦ ?_
      rw [Decimal.canonical_toList_eq_some_iff.2 hi] at hcanonical
      cases hcanonical
    | some i =>
      have hnumeral := Decimal.canonical_toList_eq_some_iff.1 hcanonical
      rw [hcanonical] at h
      dsimp only at h
      by_cases hi : i ≤ Decimal.maxWord
      · rw [if_pos hi] at h
        dsimp only at h
        split at h
        · cases h
        · rename_i hplace
          cases h
          exact .outside hnumeral hi hplace
      · rw [if_neg hi] at h
        cases h
        exact .huge hnumeral (Nat.not_le.1 hi)

theorem index_of_refused (h : Refused segment length atEnd refused) :
    index segment length atEnd = .error refused := by
  have hcanonical {i : Nat} (hnumeral : segment = Nat.repr i) :
      Decimal.canonical segment.toList = some i := Decimal.canonical_toList_eq_some_iff.2 hnumeral
  cases h with
  | invalid hdash hnumeral =>
    have hnone : Decimal.canonical segment.toList = none :=
      Option.eq_none_iff_forall_ne_some.2 fun i hi ↦
        hnumeral i (Decimal.canonical_toList_eq_some_iff.1 hi)
    rw [index_eq, position, if_neg hdash, hnone]
  | @huge i hnumeral hi =>
    have hdash : segment ≠ "-" := hnumeral ▸ (dash_ne_repr i).symm
    rw [index_eq, position, if_neg hdash, hcanonical hnumeral]
    dsimp only
    rw [if_neg (Nat.not_le.2 hi)]
  | @outside i hnumeral hi hplace =>
    have hdash : segment ≠ "-" := hnumeral ▸ (dash_ne_repr i).symm
    rw [index_eq, position, if_neg hdash, hcanonical hnumeral]
    dsimp only
    rw [if_pos hi]
    dsimp only
    rw [if_neg hplace]
  | noEnd hdash hend => simp [index_eq, position, hdash, hend]

/-- Every other text is refused, whatever its length. -/
theorem index_eq_error_iff :
    index segment length atEnd = .error refused ↔ Refused segment length atEnd refused :=
  ⟨refused_of_index, index_of_refused⟩

theorem lt_of_index_item (h : index segment length false = .ok i) : i < length :=
  (index_item_iff.1 h).2.2

/-- Different segments lead to different positions, if there is an item at one of them. -/
theorem ne_of_index_item (hne : segment ≠ other) (h : index segment length atEnd = .ok i)
    (hother : index other length atEnd' = .ok j) (hi : i < length) : i ≠ j := by
  rintro rfl
  have hnumeral {s : String} {b : Bool} (hs : index s length b = .ok i) : s = Nat.repr i := by
    obtain ⟨hs, -⟩ | ⟨-, -, hend⟩ := index_eq_ok_iff_repr.1 hs
    · exact hs
    · exact absurd hend (Nat.ne_of_lt hi)
  exact hne ((hnumeral h).trans (hnumeral hother).symm)

end Pointer

/-! ## Walks that demand positions to be there -/

namespace Json

variable {α : Type}

/-- The list with a document in front of the item at a position, or at its end. -/
def insertWithin (items : List Json) (i : Nat) (value : Json) : Option (List Json) :=
  if i ≤ items.length then some (items.insertIdx i value) else none

/-- An item and the list without it. -/
def takeWithin (items : List Json) (i : Nat) : Option (Json × List Json) :=
  (items[i]?).map fun item ↦ (item, items.eraseIdx i)

/-- The list with another document in the place of an item. -/
def setWithin (items : List Json) (i : Nat) (value : Json) : Option (List Json) :=
  if i < items.length then some (items.set i value) else none

def followWithin (doc : Json) : List String → Option (Except PathError Json)
  | [] => some (.ok doc)
  | segment :: rest =>
    match doc with
    | .obj members =>
      match Dict.get? members segment with
      | some child => child.followWithin rest
      | none => some (.error .notFound)
    | .arr items =>
      match Pointer.index segment items.length false with
      | .error e => some (.error e)
      | .ok i => (items[i]?).bind fun child ↦ child.followWithin rest
    | .null | .bool _ | .num _ | .str _ => some (.error .notFound)

/-- `Json.get`, given that every item that is looked at is there. -/
def getWithin (doc : Json) (p : Pointer) : Option (Except PathError Json) :=
  doc.followWithin p.segments

def editAtWithin (create : Bool) (change : String → Json → Option (Edited α)) (doc : Json) :
    List String → Option (Edited α)
  | [] => some (.error .removeRoot, doc)
  | [last] => change last doc
  | segment :: next :: rest =>
    match doc with
    | .obj members =>
      let members := membersFor create segment members
      match Dict.get? members segment with
      | some child => do
        let (result, child) ← child.editAtWithin create change (next :: rest)
        some (result, .obj (Dict.replace members segment child))
      | none => some (.error .notFound, .obj members)
    | .arr items =>
      match Pointer.index segment items.length false with
      | .error e => some (.error e, .arr items)
      | .ok i => do
        let child ← items[i]?
        let (result, child) ← child.editAtWithin create change (next :: rest)
        let items ← setWithin items i child
        some (result, .arr items)
    | doc => some (.error .throughScalar, doc)

def addChildWithin (value : Json) (last : String) : Json → Option (Edited Unit)
  | .obj members => some (.ok (), .obj (Dict.insert members last value))
  | .arr items =>
    match Pointer.index last items.length true with
    | .error e => some (.error e, .arr items)
    | .ok i => (insertWithin items i value).map fun items ↦ (.ok (), .arr items)
  | doc => some (.error .addBelowScalar, doc)

def removeChildWithin (last : String) : Json → Option (Edited Json)
  | .obj members =>
    match Dict.get? members last with
    | some child => some (.ok child, .obj (Dict.erase members last))
    | none => some (.error .notFound, .obj members)
  | .arr items =>
    match Pointer.index last items.length false with
    | .error e => some (.error e, .arr items)
    | .ok i => (takeWithin items i).map fun taken ↦ (.ok taken.1, .arr taken.2)
  | doc => some (.error .notFound, doc)

def replaceChildWithin (value : Json) (last : String) : Json → Option (Edited Unit)
  | .obj members =>
    if Dict.has members last then some (.ok (), .obj (Dict.replace members last value))
    else some (.error .notFound, .obj members)
  | .arr items =>
    match Pointer.index last items.length false with
    | .error e => some (.error e, .arr items)
    | .ok i => (setWithin items i value).map fun items ↦ (.ok (), .arr items)
  | doc => some (.error .notFound, doc)

def addWithin (doc : Json) (p : Pointer) (value : Json) (create : Bool) : Option (Edited Unit) :=
  match p.segments with
  | [] => some (.ok (), value)
  | segments => doc.editAtWithin create (addChildWithin value) segments

def removeWithin (doc : Json) (p : Pointer) : Option (Edited Json) :=
  doc.editAtWithin false removeChildWithin p.segments

def replaceWithin (doc : Json) (p : Pointer) (value : Json) : Option (Edited Unit) :=
  match p.segments with
  | [] => some (.ok (), value)
  | segments => doc.editAtWithin false (replaceChildWithin value) segments

/-! ## The demands are met -/

variable {create : Bool} {change : String → Json → Edited α}
  {changeWithin : String → Json → Option (Edited α)}

theorem followWithin_eq (doc : Json) (segments : List String) :
    doc.followWithin segments = some (doc.follow segments) := by
  induction segments generalizing doc with
  | nil => rfl
  | cons segment rest ih =>
    cases doc with
    | obj members =>
      rw [followWithin, follow]
      cases Dict.get? members segment with
      | none => rfl
      | some child => exact ih child
    | arr items =>
      rw [followWithin, follow]
      cases hindex : Pointer.index segment items.length false with
      | error e => rfl
      | ok i =>
        dsimp only
        rw [List.getElem?_eq_getElem (Pointer.lt_of_index_item hindex)]
        exact ih _
    | _ => rfl

theorem editAtWithin_eq (hchange : ∀ last doc, changeWithin last doc = some (change last doc))
    (doc : Json) (segments : List String) :
    doc.editAtWithin create changeWithin segments = some (doc.editAt create change segments) := by
  cases segments with
  | nil => rfl
  | cons segment rest =>
    induction rest generalizing segment doc with
    | nil => exact hchange segment doc
    | cons next rest ih =>
      cases doc with
      | obj members =>
        rw [editAtWithin, editAt]
        cases Dict.get? (membersFor create segment members) segment with
        | none => rfl
        | some child =>
          dsimp only
          rw [ih child next]
          rfl
      | arr items =>
        rw [editAtWithin, editAt]
        cases hindex : Pointer.index segment items.length false with
        | error e => rfl
        | ok i =>
          have hi : i < items.length := Pointer.lt_of_index_item hindex
          dsimp only
          rw [List.getElem?_eq_getElem hi]
          simp only [Option.bind_eq_bind, Option.bind_some, ih _ next, setWithin, if_pos hi]
      | _ => rfl

theorem addChildWithin_eq (value : Json) (last : String) (doc : Json) :
    addChildWithin value last doc = some (addChild value last doc) := by
  cases doc with
  | arr items =>
    rw [addChildWithin, addChild]
    cases hindex : Pointer.index last items.length true with
    | error e => rfl
    | ok i =>
      dsimp only
      rw [insertWithin, if_pos (Pointer.index_le hindex)]
      rfl
  | _ => rfl

theorem removeChildWithin_eq (last : String) (doc : Json) :
    removeChildWithin last doc = some (removeChild last doc) := by
  cases doc with
  | obj members =>
    rw [removeChildWithin, removeChild]
    cases Dict.get? members last <;> rfl
  | arr items =>
    rw [removeChildWithin, removeChild]
    cases hindex : Pointer.index last items.length false with
    | error e => rfl
    | ok i =>
      dsimp only
      rw [takeWithin, List.getElem?_eq_getElem (Pointer.lt_of_index_item hindex)]
      rfl
  | _ => rfl

theorem replaceChildWithin_eq (value : Json) (last : String) (doc : Json) :
    replaceChildWithin value last doc = some (replaceChild value last doc) := by
  cases doc with
  | obj members =>
    rw [replaceChildWithin, replaceChild]
    split <;> rfl
  | arr items =>
    rw [replaceChildWithin, replaceChild]
    cases hindex : Pointer.index last items.length false with
    | error e => rfl
    | ok i =>
      dsimp only
      rw [setWithin, if_pos (Pointer.lt_of_index_item hindex)]
      rfl
  | _ => rfl

theorem getWithin_eq (doc : Json) (p : Pointer) : doc.getWithin p = some (doc.get p) :=
  followWithin_eq doc p.segments

theorem addWithin_eq (doc : Json) (p : Pointer) (value : Json) (create : Bool) :
    doc.addWithin p value create = some (doc.add p value create) := by
  obtain ⟨segments⟩ := p
  cases segments with
  | nil => rfl
  | cons segment rest => exact editAtWithin_eq (addChildWithin_eq value) doc _

theorem removeWithin_eq (doc : Json) (p : Pointer) : doc.removeWithin p = some (doc.remove p) :=
  editAtWithin_eq removeChildWithin_eq doc _

theorem replaceWithin_eq (doc : Json) (p : Pointer) (value : Json) :
    doc.replaceWithin p value = some (doc.replace p value) := by
  obtain ⟨segments⟩ := p
  cases segments with
  | nil => rfl
  | cons segment rest => exact editAtWithin_eq (replaceChildWithin_eq value) doc _

end Json

/-! ## Patches -/

/-- `PatchOp.apply`, given that every item that is accessed is there. -/
def PatchOp.applyWithin (create : Bool) (op : PatchOp) (doc : Json) : Option Outcome :=
  match op with
  | .add path value => (doc.addWithin path value create).map (.ofEdit path)
  | .remove path => (doc.removeWithin path).map (.ofEdit path)
  | .replace path value => (doc.replaceWithin path value).map (.ofEdit path)
  | .move source path =>
    if source = path then (doc.getWithin source).map fun found ↦ .ofEdit source (found, doc)
    else if source.isAbove path then some ⟨doc, some (.moveIntoItself source path)⟩
    else do
      match ← doc.removeWithin source with
      | (.error cause, doc) => some ⟨doc, some (.at source cause)⟩
      | (.ok value, doc) => (doc.addWithin path value create).map (.ofEdit path)
  | .copy source path => do
    match ← doc.getWithin source with
    | .error cause => some ⟨doc, some (.at source cause)⟩
    | .ok value => (doc.addWithin path value create).map (.ofEdit path)
  | .test path value => do
    match ← doc.getWithin path with
    | .error cause => some ⟨doc, some (.at path cause)⟩
    | .ok found =>
      if found.same value then some ⟨doc, none⟩
      else some ⟨doc, some (.testFailed path value found)⟩

theorem PatchOp.applyWithin_eq (create : Bool) (op : PatchOp) (doc : Json) :
    op.applyWithin create doc = some (op.apply create doc) := by
  cases op with
  | add path value =>
    rw [applyWithin, Json.addWithin_eq]
    rfl
  | remove path =>
    rw [applyWithin, Json.removeWithin_eq]
    rfl
  | replace path value =>
    rw [applyWithin, Json.replaceWithin_eq]
    rfl
  | move source path =>
    rw [applyWithin, apply, Json.getWithin_eq, Json.removeWithin_eq]
    split
    · rfl
    · split
      · rfl
      · rw [Option.bind_eq_bind, Option.bind_some]
        rcases doc.remove source with ⟨cause | value, left⟩
        · rfl
        · dsimp only
          rw [Json.addWithin_eq]
          rfl
  | copy source path =>
    rw [applyWithin, apply, Json.getWithin_eq, Option.bind_eq_bind, Option.bind_some]
    cases doc.get source with
    | error cause => rfl
    | ok value =>
      dsimp only
      rw [Json.addWithin_eq]
      rfl
  | test path value =>
    rw [applyWithin, apply, Json.getWithin_eq, Option.bind_eq_bind, Option.bind_some]
    cases doc.get path with
    | error cause => rfl
    | ok found =>
      dsimp only
      split <;> rfl

namespace Patch

def applyFromWithin (create : Bool) (index : Nat) (doc : Json) :
    List PatchOp → Option (Json × Option PatchFailure)
  | [] => some (doc, none)
  | op :: ops => do
    match ← op.applyWithin create doc with
    | ⟨doc, none⟩ => applyFromWithin create (index + 1) doc ops
    | ⟨doc, some cause⟩ => some (doc, some ⟨index, op, cause⟩)

/-- `Patch.apply`, given that every item that is accessed is there. -/
def applyWithin (create : Bool) (ops : List PatchOp) (doc : Json) :
    Option (Json × Option PatchFailure) :=
  applyFromWithin create 0 doc ops

theorem applyFromWithin_eq (create : Bool) (index : Nat) (doc : Json) (ops : List PatchOp) :
    applyFromWithin create index doc ops = some (applyFrom create index doc ops) := by
  induction ops generalizing index doc with
  | nil => rfl
  | cons op ops ih =>
    rw [applyFromWithin, applyFrom, PatchOp.applyWithin_eq, Option.bind_eq_bind, Option.bind_some]
    rcases op.apply create doc with ⟨left, _ | cause⟩
    · exact ih (index + 1) left
    · rfl

/-- **Positions within arrays.** A segment is read as a position exactly if

* it is the numeral of the position, which is a word, and there is such an item, or it is the place
  after the last item and that counts, or
* it is `-`, the position is the place after the last item, and that counts.

Every other segment is refused as invalid, for one of the reasons. So all accesses to items, when a
pointer is followed and when a patch is applied, are within the array, and different segments never
lead to one item. -/
theorem indices_exact_safe :
    (∀ segment length atEnd i, Pointer.index segment length atEnd = .ok i ↔
      (segment = Nat.repr i ∧ i ≤ Decimal.maxWord ∧ (i < length ∨ (atEnd = true ∧ i ≤ length))) ∨
        (segment = "-" ∧ atEnd = true ∧ i = length)) ∧
    (∀ segment length atEnd, (∃ i, Pointer.index segment length atEnd = .ok i) ∨
      ∃ refused, Pointer.index segment length atEnd = .error refused ∧
        Pointer.Refused segment length atEnd refused ∧
        ∀ path, Failure.ofPath path refused = .validation (refused.message path)) ∧
    (∀ doc p, Json.getWithin doc p = some (doc.get p)) ∧
    (∀ create ops doc, applyWithin create ops doc = some (apply create ops doc)) ∧
    ∀ segment other length atEnd atEnd' i j, segment ≠ other →
      Pointer.index segment length atEnd = .ok i → Pointer.index other length atEnd' = .ok j →
      i < length → i ≠ j := by
  refine ⟨fun _ _ _ _ ↦ Pointer.index_eq_ok_iff_repr, fun segment length atEnd ↦ ?_,
    Json.getWithin_eq, fun create ops doc ↦ applyFromWithin_eq create 0 doc ops,
    fun _ _ _ _ _ _ _ ↦ Pointer.ne_of_index_item⟩
  cases hindex : Pointer.index segment length atEnd with
  | ok i => exact .inl ⟨i, rfl⟩
  | error refused => exact .inr ⟨refused, rfl, Pointer.index_eq_error_iff.1 hindex, fun _ ↦ rfl⟩

/-- Of eleven items, `1` and `10` lead to different ones. The place behind them is told in two ways,
but there is no item. A number that is no word is refused, and a patch that has it does nothing. -/
theorem indices_exact_safe_eleven :
    Pointer.index "1" 11 false = .ok 1 ∧ Pointer.index "10" 11 false = .ok 10 ∧ 1 ≠ 10 ∧
      Pointer.index "11" 11 true = .ok 11 ∧ Pointer.index "-" 11 true = .ok 11 ∧
      Pointer.Refused "01" 11 true (.invalidIndex "01") ∧
      applyWithin false [.add ⟨["18446744073709551616"]⟩ .null] (.arr []) =
        some (.arr [], some ⟨0, .add ⟨["18446744073709551616"]⟩ .null,
          .at ⟨["18446744073709551616"]⟩ .hugeIndex⟩) := by
  obtain ⟨-, hrefused, -, happly, hne⟩ := indices_exact_safe
  have hone : Pointer.index "1" 11 false = .ok 1 := by rfl
  have hten : Pointer.index "10" 11 false = .ok 10 := by rfl
  refine ⟨hone, hten, hne "1" "10" 11 false false 1 10 (by decide) hone hten (by decide),
    by rfl, by rfl, ?_, ?_⟩
  · exact Pointer.index_eq_error_iff.1 (by rfl)
  · rw [happly]
    decide +kernel

end Patch

end AgentSession
