import AgentSession.Json.PatchDocument
import AgentSession.Proofs.Json.Field
import AgentSession.Proofs.Json.PointerText
import Mathlib.Data.List.Forall2
/-!
# Reading back patches

An operation is read from an object just if the object spells it (`PatchOp.ofJson_obj_eq_ok_iff`):
it has the name of the operation, a text that is read as its place, and what the operation holds
besides. The object that is written for an operation has no name twice and spells the operation,
provided that each pointer in it is read back.

Pointers that were read are (`Pointer.parse_render_iff`), so a patch that was read is read back as
it was, whatever else stood in the objects it was read from.
-/

namespace AgentSession

theorem exceptBind_eq_ok_iff {ε α β : Type} {x : Except ε α} {f : α → Except ε β} {b : β} :
    (x >>= f) = .ok b ↔ ∃ a, x = .ok a ∧ f a = .ok b := by
  cases x with
  | error e => exact iff_of_false nofun fun ⟨_, h, _⟩ ↦ nomatch h
  | ok a => exact ⟨fun h ↦ ⟨a, rfl, h⟩, fun ⟨_, ha, h⟩ ↦ Except.ok.inj ha ▸ h⟩

namespace PatchOp

variable {members : Dict Json} {key name text : String} {value : Json} {p : Pointer} {op : PatchOp}

/-! ## Parts of an operation -/

/-- The place that an operation is about. -/
def path : PatchOp → Pointer
  | .add path _ | .remove path | .replace path _ | .test path _ => path
  | .move _ path | .copy _ path => path

/-- The document that an operation brings. -/
def value? : PatchOp → Option Json
  | .add _ value | .replace _ value | .test _ value => some value
  | .remove _ | .move _ _ | .copy _ _ => none

/-- The place that an operation takes a document from. -/
def source? : PatchOp → Option Pointer
  | .add _ _ | .remove _ | .replace _ _ | .test _ _ => none
  | .move source _ | .copy source _ => some source

/-- An object says which operation is meant, and everything the operation holds. -/
structure SpelledBy (op : PatchOp) (members : Dict Json) : Prop where
  name : textAt members "op" = .ok op.name
  path : pointerAt members "path" = .ok op.path
  value : ∀ value, op.value? = some value → members.get? "value" = some value
  source : ∀ source, op.source? = some source → pointerAt members "from" = .ok source

/-- Every pointer of an operation is read back from what is written for it. -/
def Readable (op : PatchOp) : Prop :=
  op.path.segments ≠ [""] ∧ ∀ source, op.source? = some source → source.segments ≠ [""]

/-! ## Reading -/

theorem textAt_eq_ok_iff : textAt members key = .ok text ↔ members.get? key = some (.str text) := by
  rw [textAt]
  rcases members.get? key with _ | doc
  · simp
  · cases doc <;> simp [Json.text?]

theorem pointerAt_eq_ok_iff :
    pointerAt members key = .ok p ↔
      ∃ text, textAt members key = .ok text ∧ Pointer.parse text = .ok p := by
  rw [pointerAt, exceptBind_eq_ok_iff]
  refine exists_congr fun text ↦ and_congr_right fun _ ↦ ?_
  cases Pointer.parse text <;> simp

theorem valueAt_eq_ok_iff :
    valueAt members name = .ok value ↔ members.get? "value" = some value := by
  rw [valueAt]
  cases members.get? "value" <;> simp

/-- **Which objects are read as an operation.** -/
theorem ofJson_obj_eq_ok_iff : ofJson (.obj members) = .ok op ↔ op.SpelledBy members := by
  rw [ofJson]
  simp only [exceptBind_eq_ok_iff]
  constructor
  · rintro ⟨name, hname, path, hpath, h⟩
    split at h
    case h_1 | h_3 | h_6 =>
      obtain ⟨value, hvalue, h⟩ := exceptBind_eq_ok_iff.1 h
      obtain rfl := Except.ok.inj h
      exact ⟨hname, hpath, fun _ hsome ↦ Option.some.inj hsome ▸ valueAt_eq_ok_iff.1 hvalue, nofun⟩
    case h_2 =>
      obtain rfl := Except.ok.inj h
      exact ⟨hname, hpath, nofun, nofun⟩
    case h_4 | h_5 =>
      obtain ⟨source, hsource, h⟩ := exceptBind_eq_ok_iff.1 h
      obtain rfl := Except.ok.inj h
      exact ⟨hname, hpath, nofun, fun _ hsome ↦ Option.some.inj hsome ▸ hsource⟩
    case h_7 => exact nomatch h
  · rintro ⟨hname, hpath, hvalue, hsource⟩
    refine ⟨op.name, hname, op.path, hpath, ?_⟩
    cases op with
    | add path value | replace path value | test path value =>
      exact exceptBind_eq_ok_iff.2 ⟨value, valueAt_eq_ok_iff.2 (hvalue value rfl), rfl⟩
    | remove path => rfl
    | move source path | copy source path =>
      exact exceptBind_eq_ok_iff.2 ⟨source, hsource source rfl, rfl⟩

theorem SpelledBy.readable (h : op.SpelledBy members) : op.Readable := by
  have key {key : String} {p : Pointer} (hp : pointerAt members key = .ok p) :
      p.segments ≠ [""] := by
    obtain ⟨text, -, hparse⟩ := pointerAt_eq_ok_iff.1 hp
    exact Pointer.segments_ne_of_parse hparse
  exact ⟨key h.path, fun source hsource ↦ key (h.source source hsource)⟩

theorem readable_of_ofJson {doc : Json} (h : ofJson doc = .ok op) : op.Readable := by
  cases doc with
  | obj members => exact (ofJson_obj_eq_ok_iff.1 h).readable
  | _ => exact nomatch h

/-! ## Writing -/

/-- The members of the object that is written for an operation. -/
def written (op : PatchOp) : List (String × Json) :=
  [("op", .str op.name), ("path", .str op.path.render)] ++
    op.value?.toList.map (("value", ·)) ++ op.source?.toList.map fun p ↦ ("from", .str p.render)

theorem toJson_eq_object (op : PatchOp) : op.toJson = .object op.written := by
  cases op <;> rfl

theorem nodup_written (op : PatchOp) : (op.written.map (·.1)).Nodup := by
  cases op <;> simp [written, value?, source?]

theorem Readable.spelledBy_written (h : op.Readable) :
    op.SpelledBy (Dict.ofList op.written) := by
  have hget (key : String) : (Dict.ofList op.written).get? key = Dict.get? op.written key :=
    Dict.get?_ofList op.nodup_written key
  refine ⟨?_, ?_, fun value hvalue ↦ ?_, fun source hsource ↦ ?_⟩
  · rw [textAt_eq_ok_iff, hget]
    rfl
  · refine pointerAt_eq_ok_iff.2 ⟨op.path.render, ?_, Pointer.parse_render_iff.2 h.1⟩
    rw [textAt_eq_ok_iff, hget]
    rfl
  · rw [hget]
    cases op <;> cases hvalue <;> rfl
  · refine pointerAt_eq_ok_iff.2 ⟨source.render, ?_, Pointer.parse_render_iff.2 (h.2 _ hsource)⟩
    rw [textAt_eq_ok_iff, hget]
    cases op <;> cases hsource <;> rfl

/-- Which operations are read back as they were written. -/
theorem ofJson_toJson_iff : ofJson op.toJson = .ok op ↔ op.Readable := by
  constructor
  · exact readable_of_ofJson
  · intro h
    rw [toJson_eq_object, Json.object, ofJson_obj_eq_ok_iff]
    exact h.spelledBy_written

end PatchOp

/-! ## Whole patches -/

namespace Patch

variable {items : List Json} {ops : List PatchOp} {doc : Json}

theorem mapM_ofJson_eq_ok_iff :
    items.mapM PatchOp.ofJson = .ok ops ↔
      List.Forall₂ (fun item op ↦ PatchOp.ofJson item = .ok op) items ops := by
  induction items generalizing ops with
  | nil =>
    rw [List.mapM_nil, List.forall₂_nil_left_iff]
    exact ⟨fun h ↦ (Except.ok.inj h).symm, fun h ↦ congrArg Except.ok h.symm⟩
  | cons item items ih =>
    simp only [List.mapM_cons, exceptBind_eq_ok_iff, List.forall₂_cons_left_iff, ih]
    refine exists_congr fun op ↦ ?_
    constructor
    · rintro ⟨hop, rest, hrest, h⟩
      exact ⟨rest, hop, hrest, (Except.ok.inj h).symm⟩
    · rintro ⟨rest, hop, hrest, rfl⟩
      exact ⟨hop, rest, hrest, rfl⟩

/-- Which patches are read back as they were written. -/
theorem ofJson_toJson_iff : ofJson (toJson ops) = .ok ops ↔ ∀ op ∈ ops, op.Readable := by
  rw [toJson, ofJson, mapM_ofJson_eq_ok_iff, List.forall₂_map_left_iff, List.forall₂_same]
  exact forall₂_congr fun op _ ↦ PatchOp.ofJson_toJson_iff

theorem readable_of_ofJson (h : ofJson doc = .ok ops) : ∀ op ∈ ops, op.Readable := by
  cases doc with
  | arr items =>
    have hread := mapM_ofJson_eq_ok_iff.1 h
    exact (List.forall₂_and_left ops items).1
      (hread.flip.imp fun op item hitem ↦ ⟨PatchOp.readable_of_ofJson hitem, hitem⟩) |>.1
  | _ => exact nomatch h

end Patch

/-- **The syntax of pointers and patches.** The texts that are read as pointers are the empty one
and those that begin with a slash and have a zero or a one after every tilde. What is written for a
pointer that was read is the text it was read from, or the slash for the empty text; it is read as
the same pointer again, so two texts that are read alike are equal unless one is empty, and the
pointer with a single, empty segment is never read. A patch that was read is read again from what
is written for it. -/
theorem patchSyntax_roundTrip :
    (∀ path, (∃ p, Pointer.parse path = .ok p) ↔
      path = "" ∨ path.toList.head? = some '/' ∧ Pointer.Escaped path.toList) ∧
    (∀ path p, Pointer.parse path = .ok p →
      p.render = (if path = "" then "/" else path) ∧ Pointer.parse p.render = .ok p ∧
        p.segments ≠ [""]) ∧
    (∀ path path' p, path ≠ "" → path' ≠ "" →
      Pointer.parse path = .ok p → Pointer.parse path' = .ok p → path = path') ∧
    ∀ doc ops, Patch.ofJson doc = .ok ops → Patch.ofJson (Patch.toJson ops) = .ok ops := by
  refine ⟨fun path ↦ Pointer.exists_parse_eq_ok_iff, ?_, ?_, ?_⟩
  · intro path p h
    have hsegments := Pointer.segments_ne_of_parse h
    exact ⟨Pointer.render_of_parse h, Pointer.parse_render_iff.2 hsegments, hsegments⟩
  · intro path path' p hne hne' h h'
    have hrender := Pointer.render_of_parse h
    have hrender' := Pointer.render_of_parse h'
    rw [if_neg hne] at hrender
    rw [if_neg hne'] at hrender'
    rw [← hrender, hrender']
  · intro doc ops h
    exact Patch.ofJson_toJson_iff.2 (Patch.readable_of_ofJson h)

/-- Escapes next to an empty segment, a tilde without its digit, two texts that differ in one
escape, and a move that is written with its members in another order and with one too many. -/
theorem patchSyntax_roundTrip_escapes :
    (Pointer.parse "/a~1b//~01" = .ok ⟨["a/b", "", "~1"]⟩ ∧
      Pointer.render ⟨["a/b", "", "~1"]⟩ = "/a~1b//~01") ∧
    (¬∃ p, Pointer.parse "/~~0" = .ok p) ∧
    (¬∃ p, Pointer.parse "/~1" = .ok p ∧ Pointer.parse "/~01" = .ok p) ∧
    ∃ doc, Patch.ofJson doc = .ok [.move .root ⟨["a/b"]⟩] ∧
      doc ≠ Patch.toJson [.move .root ⟨["a/b"]⟩] ∧
      Patch.ofJson (Patch.toJson [.move .root ⟨["a/b"]⟩]) = .ok [.move .root ⟨["a/b"]⟩] := by
  obtain ⟨hread, hwritten, hdistinct, hpatch⟩ := patchSyntax_roundTrip
  have hescapes : Pointer.parse "/a~1b//~01" = .ok ⟨["a/b", "", "~1"]⟩ := by decide
  have hmove : Patch.ofJson (.arr [.object [("path", .str "/a~1b"), ("value", .null),
      ("from", .str ""), ("op", .str "move")]]) = .ok [.move .root ⟨["a/b"]⟩] := by decide
  refine ⟨⟨hescapes, (hwritten _ _ hescapes).1⟩, fun h ↦ ?_, ?_, _, hmove, by decide,
    hpatch _ _ hmove⟩
  · rcases (hread "/~~0").1 h with hempty | ⟨-, hescaped⟩
    · exact absurd hempty (by decide)
    · exact absurd (hescaped ['/'] ['~', '0'] (by decide)) (by decide)
  · rintro ⟨p, h, h'⟩
    exact absurd (hdistinct "/~1" "/~01" p (by decide) (by decide) h h') (by decide)

end AgentSession
