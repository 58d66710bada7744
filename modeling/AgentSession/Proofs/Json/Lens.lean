import AgentSession.Proofs.Json.Put
import Mathlib.Data.List.Basic
/-!
# Looking at a place and replacing it

Looking at the place of a pointer and replacing the document there are written as two walks, one
that only reads and one that changes the container at its end. They form a lens all the same: a
document can be replaced exactly where one is found, what was put there is found again, the last
replacement counts, and places that lie apart do not notice each other (`Json.get_replace_lens`).

Nothing is assumed of the document: members may stand in any order, and segments may be any texts.
-/

namespace AgentSession

/-- Pointers neither of which begins with the other. They lead to places that lie apart. -/
def Pointer.Apart (p q : Pointer) : Prop :=
  ¬ p.segments <+: q.segments ∧ ¬ q.segments <+: p.segments

instance (p q : Pointer) : Decidable (p.Apart q) :=
  inferInstanceAs (Decidable (¬ p.segments <+: q.segments ∧ ¬ q.segments <+: p.segments))

theorem Pointer.Apart.symm {p q : Pointer} (h : p.Apart q) : q.Apart p := ⟨h.2, h.1⟩

namespace Json

variable {doc value left : Json} {last : String}

/-! ## Replacing -/

theorem replaceChild_ok_iff :
    replaceChild value last doc = (.ok (), left) ↔
      (∃ part, enter? false last doc = some part) ∧ putPart false last value doc = left := by
  cases doc with
  | obj members =>
    have henter : enter? false last (.obj members) = Dict.get? members last := rfl
    rw [replaceChild, henter, putPart_obj, Dict.has]
    cases Dict.get? members last with
    | none => simp
    | some child => simp
  | arr items =>
    rw [replaceChild, enter?, putPart]
    cases hindex : Pointer.index last items.length false with
    | error e => simp
    | ok i =>
      have hlt : i < items.length := (Pointer.index_item_iff.1 hindex).2.2
      simp [hlt]
  | _ => simp [replaceChild, enter?]

/-- A document is replaced where one is found, and is put into that place. -/
theorem replace_ok_iff {p : Pointer} :
    doc.replace p value = (.ok (), left) ↔
      (∃ part, doc.get p = .ok part) ∧ doc.put p.segments value = left := by
  obtain ⟨segments⟩ := p
  rcases List.eq_nil_or_concat segments with rfl | ⟨parents, last, rfl⟩
  · simp [replace, get, follow, put]
  · rw [List.concat_eq_append]
    have hreplace : doc.replace ⟨parents ++ [last]⟩ value =
        doc.editAt false (replaceChild value) (parents ++ [last]) := by
      rw [replace]
      split
      · rename_i h
        exact absurd h (List.append_ne_nil_of_right_ne_nil _ (List.cons_ne_nil _ _))
      · rfl
    rw [hreplace, editAt_ok_iff, get]
    dsimp only
    constructor
    · rintro ⟨part, part', hpart, hchange, rfl⟩
      obtain ⟨⟨child, hchild⟩, rfl⟩ := replaceChild_ok_iff.1 hchange
      refine ⟨⟨child, ?_⟩, ?_⟩
      · rw [follow_append, hpart]
        exact follow_singleton_eq_ok_iff.2 hchild
      · rw [put_append hpart, put_cons hchild]
        rfl
    · rintro ⟨⟨child, hchild⟩, rfl⟩
      rw [follow_append] at hchild
      cases hpart : doc.follow parents with
      | error e =>
        rw [hpart] at hchild
        cases hchild
      | ok part =>
        rw [hpart] at hchild
        have hlast : enter? false last part = some child := follow_singleton_eq_ok_iff.1 hchild
        refine ⟨part, _, rfl, replaceChild_ok_iff.2 ⟨⟨child, hlast⟩, rfl⟩, ?_⟩
        rw [put_append hpart, put_cons hlast]
        rfl

theorem exists_replace_iff {p : Pointer} (value : Json) :
    (∃ left, doc.replace p value = (.ok (), left)) ↔ ∃ found, doc.get p = .ok found := by
  constructor
  · rintro ⟨left, hleft⟩
    exact (replace_ok_iff.1 hleft).1
  · intro hfound
    exact ⟨_, replace_ok_iff.2 ⟨hfound, rfl⟩⟩

/-! ## The lens -/

/-- **A lens.** For every document, a document can be replaced at a pointer exactly if the pointer
leads to one. When it has been replaced,

* the pointer leads to the new document,
* replacing it again is as good as replacing it once, by the last document,
* nothing has changed if the new document is the one that was there, and
* a pointer that lies apart leads to what it led to before or fails as it did before, and if it
  leads to something, the two may be replaced in either order. -/
theorem get_replace_lens (doc : Json) (p : Pointer) :
    (∀ value, (∃ left, doc.replace p value = (.ok (), left)) ↔ ∃ found, doc.get p = .ok found) ∧
    ∀ value left, doc.replace p value = (.ok (), left) →
      left.get p = .ok value ∧
      (∀ last, left.replace p last = doc.replace p last) ∧
      (doc.get p = .ok value → left = doc) ∧
      ∀ q, p.Apart q →
        left.get q = doc.get q ∧
        ∀ other found, doc.get q = .ok found →
          ∃ after both, doc.replace q other = (.ok (), after) ∧
            left.replace q other = (.ok (), both) ∧ after.replace p value = (.ok (), both) := by
  refine ⟨fun value ↦ exists_replace_iff value, ?_⟩
  intro value left hleft
  obtain ⟨⟨old, hold⟩, rfl⟩ := replace_ok_iff.1 hleft
  have hnew : (doc.put p.segments value).get p = .ok value := follow_put hold value
  refine ⟨hnew, fun last ↦ ?_, fun hsame ↦ put_eq_self hsame, fun q hapart ↦ ?_⟩
  · have hagain : (doc.put p.segments value).replace p last =
        (.ok (), doc.put p.segments last) :=
      replace_ok_iff.2 ⟨⟨value, hnew⟩, put_put hold value last⟩
    have honce : doc.replace p last = (.ok (), doc.put p.segments last) :=
      replace_ok_iff.2 ⟨⟨old, hold⟩, rfl⟩
    rw [hagain, honce]
  · have helsewhere : (doc.put p.segments value).get q = doc.get q :=
      follow_put_of_apart hold hapart value
    refine ⟨helsewhere, ?_⟩
    intro other found hfound
    have hstill : (doc.put q.segments other).get p = .ok old := by
      rw [get, follow_put_of_apart hfound hapart.symm]
      exact hold
    refine ⟨doc.put q.segments other, (doc.put p.segments value).put q.segments other, ?_, ?_, ?_⟩
    · exact replace_ok_iff.2 ⟨⟨found, hfound⟩, rfl⟩
    · exact replace_ok_iff.2 ⟨⟨found, helsewhere.trans hfound⟩, rfl⟩
    · exact replace_ok_iff.2 ⟨⟨old, hstill⟩, (put_comm hold hfound hapart value other).symm⟩

/-- An item of an array is replaced. A member of the next item, whose key is no numeral for an item,
lies apart, and so does the place after the last item, where nothing is found before or after. -/
theorem get_replace_lens_items :
    let doc : Json := .obj [("a", .arr [.int 1, .obj [("00", .bool true)]])]
    let left : Json := .obj [("a", .arr [.null, .obj [("00", .bool true)]])]
    let p : Pointer := ⟨["a", "0"]⟩
    let q : Pointer := ⟨["a", "1", "00"]⟩
    doc.replace p .null = (.ok (), left) ∧ p.Apart q ∧ doc.get q = .ok (.bool true) ∧
      left.get p = .ok .null ∧ left.get ⟨["a", "-"]⟩ = .error (.outOfBounds "-" 2) ∧
      ∃ after both, doc.replace q (.str "x") = (.ok (), after) ∧
        left.replace q (.str "x") = (.ok (), both) ∧ after.replace p .null = (.ok (), both) := by
  intro doc left p q
  have hleft : doc.replace p .null = (.ok (), left) := by decide
  have hapart : p.Apart q := by decide
  have hfound : doc.get q = .ok (.bool true) := by decide
  have hend : p.Apart ⟨["a", "-"]⟩ := by decide
  obtain ⟨hnew, -, -, helsewhere⟩ := (get_replace_lens doc p).2 .null left hleft
  refine ⟨hleft, hapart, hfound, hnew, ?_, (helsewhere q hapart).2 (.str "x") _ hfound⟩
  rw [(helsewhere _ hend).1]
  decide

end Json

end AgentSession
