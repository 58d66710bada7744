import Mathlib.Data.List.Nodup
import Mathlib.Data.List.Pairwise
import AgentSession.Proofs.Json.Field
/-!
# Fields with several names

A field of a lenient document goes by several names and takes values of one type. Its value is what
the first of its names holds that holds a value of this type (`Field.find?_eq_some_iff`). All
lenient look-ups are functions of it, so that a reader which makes such look-ups only depends on the
values of its fields and on nothing else that a document has.

`Immaterial` lists changes of an object that leave the values of some fields alone: to put or take
away what is no field's, to take away a value of the wrong type, to use another name for a value
that is the only one, and to change anything behind the name that wins. Each of them changes one
name, or moves one value between two names of a field; that the other fields keep their values is
because fields have no names in common (`Field.Separate`).
-/

namespace AgentSession

/-- What a field takes for a value. -/
inductive FieldType where
  | text
  /-- Any document but `null`. -/
  | document
  | items
deriving DecidableEq

namespace FieldType

def holds : FieldType → Json → Bool
  | .text, value => value.text?.isSome
  | .document, value => !value.isNull
  | .items, value => value.items?.isSome

/-- What a name holds, if that is a value of the type. -/
def valueAt? (type : FieldType) (doc : Json) (name : String) : Option Json :=
  (doc.member? name).filter type.holds

variable {type : FieldType} {doc doc' : Json} {name : String}

theorem valueAt?_eq_some_iff {value : Json} :
    type.valueAt? doc name = some value ↔
      doc.member? name = some value ∧ type.holds value = true :=
  Option.filter_eq_some_iff

theorem valueAt?_congr (h : doc'.member? name = doc.member? name) :
    type.valueAt? doc' name = type.valueAt? doc name :=
  congrArg (Option.filter type.holds) h

theorem valueAt?_eq_none (h : doc.member? name = none) : type.valueAt? doc name = none := by
  rw [valueAt?, h, Option.filter_none]

theorem valueAt?_eq_none_of_holds {value : Json} (h : doc.member? name = some value)
    (htype : type.holds value = false) : type.valueAt? doc name = none := by
  rw [valueAt?, h, Option.filter_some, htype, if_neg Bool.false_ne_true]

end FieldType

/-- A field of lenient documents: the names that it goes by, in order of preference, and what it
takes for a value. -/
structure Field where
  names : List String
  type : FieldType
deriving DecidableEq

namespace Field

/-- The value of the field. -/
def find? (field : Field) (doc : Json) : Option Json :=
  field.names.findSome? (field.type.valueAt? doc)

variable {names : List String} {type : FieldType} {doc doc' : Json}

theorem find?_cons (name : String) :
    find? ⟨name :: names, type⟩ doc = (type.valueAt? doc name).or (find? ⟨names, type⟩ doc) := by
  rw [find?, List.findSome?_cons]
  cases type.valueAt? doc name with
  | none => rfl
  | some value => rfl

theorem find?_append (earlier : List String) :
    find? ⟨earlier ++ names, type⟩ doc = (find? ⟨earlier, type⟩ doc).or (find? ⟨names, type⟩ doc) :=
  List.findSome?_append

/-- The first name that holds a value of the right type wins. -/
theorem find?_eq_some_iff {value : Json} :
    find? ⟨names, type⟩ doc = some value ↔ ∃ earlier winner later,
      names = earlier ++ winner :: later ∧ type.valueAt? doc winner = some value ∧
        ∀ name ∈ earlier, type.valueAt? doc name = none :=
  List.findSome?_eq_some_iff

theorem holds_of_find? {value : Json} (h : find? ⟨names, type⟩ doc = some value) :
    type.holds value = true := by
  obtain ⟨_, _, _, -, hvalue, -⟩ := find?_eq_some_iff.1 h
  exact (FieldType.valueAt?_eq_some_iff.1 hvalue).2

theorem find?_congr (h : ∀ name ∈ names, type.valueAt? doc' name = type.valueAt? doc name) :
    find? ⟨names, type⟩ doc' = find? ⟨names, type⟩ doc := by
  induction names with
  | nil => rfl
  | cons name names ih =>
    obtain ⟨hname, hnames⟩ := List.forall_mem_cons.1 h
    rw [find?_cons, find?_cons, hname, ih hnames]

/-- What only one name may hold is the value. -/
theorem find?_eq_valueAt? {name : String} (hname : name ∈ names)
    (h : ∀ other ∈ names, other ≠ name → type.valueAt? doc other = none) :
    find? ⟨names, type⟩ doc = type.valueAt? doc name := by
  cases hvalue : type.valueAt? doc name with
  | none =>
    refine List.findSome?_eq_none_iff.2 fun other hother ↦ ?_
    by_cases hne : other = name
    · rw [hne, hvalue]
    · exact h other hother hne
  | some value =>
    obtain ⟨earlier, later, rfl, hnotMem⟩ := List.eq_append_cons_of_mem hname
    refine find?_eq_some_iff.2 ⟨earlier, name, later, rfl, hvalue, fun other hother ↦ ?_⟩
    exact h other (List.mem_append_left _ hother) (ne_of_mem_of_not_mem hother hnotMem)

/-- What stands behind the winner does not matter. -/
theorem find?_eq_of_winner {earlier later : List String} {winner : String} {value : Json}
    (hvalue : type.valueAt? doc winner = some value)
    (hwinner : type.valueAt? doc' winner = type.valueAt? doc winner)
    (h : ∀ name ∈ earlier, type.valueAt? doc' name = type.valueAt? doc name) :
    find? ⟨earlier ++ winner :: later, type⟩ doc' =
      find? ⟨earlier ++ winner :: later, type⟩ doc := by
  rw [find?_append, find?_append, find?_cons, find?_cons, hwinner, hvalue, find?_congr h,
    Option.some_or, Option.some_or]

end Field

/-! ## Look-ups as functions of a value -/

namespace Json

variable {doc : Json} {names : List String} {α : Type} {read : Json → Option α} {type : FieldType}

theorem bind_valueAt? (h : ∀ value, (read value).isSome = type.holds value) (name : String) :
    (type.valueAt? doc name).bind read = (doc.member? name).bind read := by
  rw [FieldType.valueAt?]
  cases doc.member? name with
  | none => rfl
  | some value =>
    rw [Option.filter_some, Option.bind_some]
    split
    · rfl
    · rename_i htype
      rw [← h value, Option.not_isSome_iff_eq_none] at htype
      exact htype.symm

theorem first?_eq_bind (h : ∀ value, (read value).isSome = type.holds value) :
    doc.first? read names = (Field.find? ⟨names, type⟩ doc).bind read := by
  induction names with
  | nil => rfl
  | cons name names ih =>
    rw [first?_cons, Field.find?_cons, ih, ← bind_valueAt? h]
    cases hvalue : type.valueAt? doc name with
    | none => rfl
    | some value =>
      obtain ⟨-, htype⟩ := FieldType.valueAt?_eq_some_iff.1 hvalue
      obtain ⟨a, ha⟩ := Option.isSome_iff_exists.1 ((h value).trans htype)
      rw [Option.some_or, Option.bind_some, ha, Option.some_or]

theorem textField?_eq (names : List String) (doc : Json) :
    doc.textField? names = (Field.find? ⟨names, .text⟩ doc).bind text? :=
  first?_eq_bind fun _ ↦ rfl

theorem valueField_eq (names : List String) (doc : Json) :
    doc.valueField names = (Field.find? ⟨names, .document⟩ doc).getD .null := by
  have hread (value : Json) :
      (if value.isNull then none else some value).isSome = FieldType.document.holds value := by
    rw [FieldType.holds]
    cases value.isNull <;> rfl
  rw [valueField, first?_eq_bind hread]
  cases Field.find? ⟨names, .document⟩ doc with
  | none => rfl
  | some value => exact getD_null_eq_self value

theorem itemsField_eq (names : List String) (doc : Json) :
    doc.itemsField names = ((Field.find? ⟨names, .items⟩ doc).bind items?).getD [] :=
  congrArg (Option.getD · []) (first?_eq_bind fun _ ↦ rfl)

end Json

/-! ## Changes that leave fields alone -/

/-- No name belongs to two fields, or to one twice. -/
def Field.Separate (fields : List Field) : Prop := (fields.flatMap Field.names).Nodup

instance (fields : List Field) : Decidable (Field.Separate fields) :=
  inferInstanceAs (Decidable (List.Nodup _))

/-- A change of an object's members that leaves the values of fields alone. -/
inductive Immaterial (fields : List Field) (members : Dict Json) : Dict Json → Prop
  /-- What is no field's is put or taken away. -/
  | stray {key : String} (h : ∀ field ∈ fields, key ∉ field.names) (value? : Option Json) :
      Immaterial fields members (members.update key value?)
  /-- A value of the wrong type is taken away. -/
  | mistyped {field : Field} (hfield : field ∈ fields) {name : String} (hname : name ∈ field.names)
      {value : Json} (hvalue : members.get? name = some value)
      (htype : field.type.holds value = false) : Immaterial fields members (members.erase name)
  /-- A value goes from the first name to another one, where no other one holds a value of the
  right type. -/
  | renamed {first second : String} {aliases : List String} {type : FieldType}
      (hfield : ⟨first :: aliases, type⟩ ∈ fields) (hsecond : second ∈ aliases)
      {value : Json} (hvalue : members.get? first = some value)
      (halone : ∀ name ∈ aliases, ∀ other, members.get? name = some other →
        type.holds other = false) :
      Immaterial fields members ((members.erase first).insert second value)
  /-- Anything happens behind a name that holds a value of the right type. -/
  | shadowed {earlier later : List String} {winner name : String} {type : FieldType}
      (hfield : ⟨earlier ++ winner :: later, type⟩ ∈ fields)
      {value : Json} (hvalue : members.get? winner = some value) (htype : type.holds value = true)
      (hname : name ∈ later) (value? : Option Json) :
      Immaterial fields members (members.update name value?)

namespace Field

variable {fields : List Field} {field other : Field} {name : String}

theorem Separate.nodup (h : Separate fields) (hfield : field ∈ fields) : field.names.Nodup :=
  (List.nodup_flatMap.1 h).1 field hfield

/-- A name belongs to one field only. -/
theorem Separate.eq_of_mem (h : Separate fields) (hfield : field ∈ fields) (hother : other ∈ fields)
    (hname : name ∈ field.names) (hname' : name ∈ other.names) : field = other := by
  have : Std.Symm (Function.onFun List.Disjoint Field.names) := ⟨fun _ _ hd _ h h' ↦ hd h' h⟩
  by_contra hne
  exact (List.nodup_flatMap.1 h).2.forall hfield hother hne hname hname'

end Field

namespace Immaterial

variable {fields : List Field} {members members' : Dict Json}

theorem sorted (h : Immaterial fields members members') (hsorted : members.Sorted) :
    members'.Sorted := by
  cases h with
  | stray _ value? => exact hsorted.update _ value?
  | mistyped _ _ _ _ => exact hsorted.erase _
  | renamed _ _ _ _ => exact (hsorted.erase _).insert _ _
  | shadowed _ _ _ _ value? => exact hsorted.update _ value?

variable {names : List String} {type : FieldType} {value : Json}

/-- A field keeps its value if none of its names is changed. -/
theorem find?_eq_of_get?_eq (h : ∀ name ∈ names, members'.get? name = members.get? name) :
    Field.find? ⟨names, type⟩ (.obj members') = Field.find? ⟨names, type⟩ (.obj members) :=
  Field.find?_congr fun name hname ↦ FieldType.valueAt?_congr (h name hname)

/-- A field keeps its value if a name is emptied that holds a value of the wrong type. -/
theorem find?_mistyped (hsorted : members.Sorted) {name : String}
    (hvalue : members.get? name = some value) (htype : type.holds value = false) :
    Field.find? ⟨names, type⟩ (.obj (members.erase name)) =
      Field.find? ⟨names, type⟩ (.obj members) := by
  refine Field.find?_congr fun other _ ↦ ?_
  have hget := hsorted.get?_erase name other
  split at hget
  · rename_i heq
    cases heq
    have hmember : (Json.obj members).member? name = some value := hvalue
    rw [FieldType.valueAt?_eq_none_of_holds hmember htype]
    exact FieldType.valueAt?_eq_none hget
  · exact FieldType.valueAt?_congr hget

/-- A field keeps its value if it goes to another name, and no other name holds any. -/
theorem find?_renamed (hsorted : members.Sorted) {first second : String} {aliases : List String}
    (hsecond : second ∈ aliases) (hvalue : members.get? first = some value)
    (halone : ∀ name ∈ aliases, ∀ other, members.get? name = some other →
      type.holds other = false) :
    Field.find? ⟨first :: aliases, type⟩ (.obj ((members.erase first).insert second value)) =
      Field.find? ⟨first :: aliases, type⟩ (.obj members) := by
  have hget (name : String) :
      Json.member? name (.obj ((members.erase first).insert second value)) =
        if second = name then some value else if first = name then none else members.get? name := by
    rw [← hsorted.get?_erase, ← Dict.get?_insert]
    rfl
  have hnone : ∀ name ∈ aliases, type.valueAt? (.obj members) name = none := by
    intro name hname
    cases hother : Json.member? name (.obj members) with
    | none => exact FieldType.valueAt?_eq_none hother
    | some other =>
      exact FieldType.valueAt?_eq_none_of_holds hother (halone name hname other hother)
  -- the value is at the first name before the change, and at the second one after it
  rw [Field.find?_eq_valueAt? (List.mem_cons_of_mem first hsecond),
    Field.find?_eq_valueAt? List.mem_cons_self, FieldType.valueAt?, FieldType.valueAt?, hget,
    if_pos rfl]
  · exact congrArg (Option.filter type.holds) hvalue.symm
  · intro name hname hne
    exact hnone name ((List.mem_cons.1 hname).resolve_left hne)
  · intro name hname hne
    by_cases hfirst : name = first
    · refine FieldType.valueAt?_eq_none ?_
      rw [hget, if_neg (Ne.symm hne), if_pos hfirst.symm]
    · rw [← hnone name ((List.mem_cons.1 hname).resolve_left hfirst)]
      refine FieldType.valueAt?_congr ?_
      rw [hget, if_neg (Ne.symm hne), if_neg (Ne.symm hfirst)]
      rfl

/-- A field keeps its value if a name behind the winner is changed. -/
theorem find?_shadowed (hsorted : members.Sorted) {earlier later : List String}
    {winner name : String} (hnodup : (earlier ++ winner :: later).Nodup)
    (hvalue : members.get? winner = some value) (htype : type.holds value = true)
    (hname : name ∈ later) (value? : Option Json) :
    Field.find? ⟨earlier ++ winner :: later, type⟩ (.obj (members.update name value?)) =
      Field.find? ⟨earlier ++ winner :: later, type⟩ (.obj members) := by
  have hkept : ∀ other, other ≠ name →
      type.valueAt? (.obj (members.update name value?)) other =
        type.valueAt? (.obj members) other :=
    fun other hne ↦ FieldType.valueAt?_congr
      ((hsorted.get?_update name value? other).trans (if_neg (Ne.symm hne)))
  obtain ⟨-, hlater, hdisjoint⟩ := List.nodup_append.1 hnodup
  refine Field.find?_eq_of_winner (FieldType.valueAt?_eq_some_iff.2 ⟨hvalue, htype⟩)
    (hkept winner ?_) fun other hother ↦ hkept other ?_
  · rintro rfl
    exact (List.nodup_cons.1 hlater).1 hname
  · exact hdisjoint other hother name (List.mem_cons_of_mem _ hname)

/-- Every field keeps its value. -/
theorem find?_eq (h : Immaterial fields members members') (hsorted : members.Sorted)
    (hfields : Field.Separate fields) {field : Field} (hfield : field ∈ fields) :
    field.find? (.obj members') = field.find? (.obj members) := by
  cases h with
  | stray hkey value? =>
    refine find?_eq_of_get?_eq fun name hname ↦ ?_
    rw [hsorted.get?_update, if_neg]
    rintro rfl
    exact hkey field hfield hname
  | mistyped hfield' hname' hvalue htype =>
    rename_i field' name value
    by_cases hsame : field = field'
    · exact find?_mistyped hsorted hvalue (hsame ▸ htype)
    · refine find?_eq_of_get?_eq fun other hother ↦ ?_
      rw [hsorted.get?_erase, if_neg]
      rintro rfl
      exact hsame (hfields.eq_of_mem hfield hfield' hother hname')
  | renamed hfield' hsecond hvalue halone =>
    rename_i first second aliases type value
    by_cases hsame : field = ⟨first :: aliases, type⟩
    · subst hsame
      exact find?_renamed hsorted hsecond hvalue halone
    · refine find?_eq_of_get?_eq fun other hother ↦ ?_
      have hother' : other ∉ first :: aliases :=
        fun hmem ↦ hsame (hfields.eq_of_mem hfield hfield' hother hmem)
      rw [Dict.get?_insert, if_neg, hsorted.get?_erase, if_neg]
      · rintro rfl
        exact hother' List.mem_cons_self
      · rintro rfl
        exact hother' (List.mem_cons_of_mem _ hsecond)
  | shadowed hfield' hvalue htype hname' value? =>
    rename_i earlier later winner name type value
    by_cases hsame : field = ⟨earlier ++ winner :: later, type⟩
    · subst hsame
      exact find?_shadowed hsorted (hfields.nodup hfield) hvalue htype hname' value?
    · refine find?_eq_of_get?_eq fun other hother ↦ ?_
      rw [hsorted.get?_update, if_neg]
      rintro rfl
      refine hsame (hfields.eq_of_mem hfield hfield' hother ?_)
      exact List.mem_append_right _ (List.mem_cons_of_mem _ hname')

end Immaterial

end AgentSession
