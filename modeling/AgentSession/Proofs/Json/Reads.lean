import AgentSession.Json.Reader
import AgentSession.Proofs.Json.Spelling
import Mathlib.Data.List.Perm.Basic
/-!
# Strict readers and what they read back

A strict reader reads a value back from a document if it reads it from every spelling of the
document, as long as so many levels are allowed as the document has (`Reader.Reads`). That is a
property of readers which the combinators keep: it holds of a list, an option, a dictionary and a
record if it holds of their parts.

A record is read from an object by looking its fields up. Of members in any order, those that the
record knows are kept, and each is a spelling of the member that the document has by this name
(`Record.Holds`). So a required field is what the document has, and a field with a default is that,
or the default if the document has none.

From a text all this is read if the numbers are integers (`Reader.Reads.run`).
-/

namespace AgentSession

/-! ## Records -/

/-- The fields of a record are spellings of the members that a document has by their names, and may
be nested in as many levels as these have. -/
def Record.Holds (r : Record) (names : List String) (members : Dict Json) : Prop :=
  ∀ name ∈ names, Option.Rel (fun w doc ↦ w.Spells doc ∧ doc.nesting ≤ r.depth)
    (r.fields.lookup name) (members.get? name)

namespace Record

open Written (SpellsMembers)

/-- Of members in some order, those that a record knows are kept. -/
theorem exists_pick (names : List String) {members : List (Option String × Written)}
    {pairs : Dict Json} (h : SpellsMembers members pairs) (hnodup : (pairs.map (·.1)).Nodup) :
    ∃ fields, pick names members = some fields ∧ (∀ field ∈ fields, field.1 ∈ pairs.map (·.1)) ∧
      ∀ name ∈ names, Option.Rel Written.Spells (fields.lookup name) (pairs.get? name) := by
  induction pairs generalizing members with
  | nil =>
    cases h
    exact ⟨[], rfl, nofun, fun _ _ ↦ .none⟩
  | cons pair pairs ih =>
    cases h with
    | cons key hvalue hmembers =>
    rename_i value doc members
    obtain ⟨hkey, hrest⟩ := List.nodup_cons.1 hnodup
    obtain ⟨fields, hpick, hmem, hfields⟩ := ih hmembers hrest
    by_cases hknown : key ∈ names
    · have hfresh : (fields.any fun p ↦ p.1 == key) = false := by
        refine List.any_eq_false.2 fun field hfield heq ↦ hkey ?_
        rw [← eq_of_beq heq]
        exact hmem field hfield
      have hpick' : pick names ((some key, value) :: members) = some ((key, value) :: fields) := by
        rw [pick, hpick]
        change (if key ∈ names then _ else _) = _
        rw [if_pos hknown, hfresh]
        rfl
      refine ⟨_, hpick', fun field hfield ↦ ?_, fun name hname ↦ ?_⟩
      · rcases List.mem_cons.1 hfield with rfl | hfield
        · exact List.mem_cons_self
        · exact List.mem_cons_of_mem _ (hmem field hfield)
      · rw [List.lookup_cons, Dict.get?_cons]
        by_cases heq : key = name
        · rw [if_pos heq, beq_iff_eq.2 heq.symm]
          exact .some hvalue
        · rw [if_neg heq, beq_eq_false_iff_ne.2 (Ne.symm heq)]
          exact hfields name hname
    · have hpick' : pick names ((some key, value) :: members) = some fields := by
        rw [pick, hpick]
        exact if_neg hknown
      refine ⟨_, hpick', fun field hfield ↦ List.mem_cons_of_mem _ (hmem field hfield),
        fun name hname ↦ ?_⟩
      rw [Dict.get?_cons, if_neg (ne_of_mem_of_not_mem hname hknown).symm]
      exact hfields name hname

theorem rel_and {w? : Option Written} {doc? : Option Json} {p : Json → Prop}
    (h : Option.Rel Written.Spells w? doc?) (hdoc : ∀ doc, doc? = some doc → p doc) :
    Option.Rel (fun w doc ↦ w.Spells doc ∧ p doc) w? doc? := by
  cases h with
  | none => exact .none
  | some h => exact .some ⟨h, hdoc _ rfl⟩

theorem exists_holds (names : List String) {members : Dict Json}
    (hnodup : (members.map (·.1)).Nodup) {w : Written} {depth : Nat}
    (h : w.Spells (.object members)) (hdepth : (Json.object members).nesting ≤ depth) :
    ∃ r, read names depth w = some r ∧ r.Holds names members := by
  rw [Json.object] at h hdepth
  cases h with
  | object h hperm =>
  rename_i written pairs
  cases depth with
  | zero => exact absurd hdepth (Nat.not_succ_le_zero _)
  | succ depth =>
    have hsorted := Dict.sorted_ofList members
    have hpairs : (pairs.map (·.1)).Nodup := (hperm.map _).nodup_iff.2 hsorted.nodup_keys
    obtain ⟨fields, hpick, -, hfields⟩ := exists_pick names h hpairs
    refine ⟨⟨depth, fields⟩, by rw [read, hpick, Option.map_some], fun name hname ↦ ?_⟩
    have hget : Dict.get? pairs name = members.get? name := by
      rw [Dict.get?_of_perm hperm hsorted.nodup_keys, Dict.get?_ofList hnodup]
    refine rel_and (hget ▸ hfields name hname) fun doc hdoc ↦ ?_
    have hmem := hperm.mem_iff.1 (Dict.mem_of_get? (hget.trans hdoc))
    exact Json.nesting_obj_le.1 hdepth _ hmem

end Record

namespace Reader

variable {α : Type} {read : Reader α} {doc : Json} {a : α}

/-- A value is read from every spelling of a document, as long as so many levels are allowed. -/
def Reads (read : Reader α) (doc : Json) (a : α) : Prop :=
  ∀ (depth : Nat) (w : Written), doc.nesting ≤ depth → w.Spells doc → read depth w = some a

theorem reads_text (s : String) : Reads text (.str s) s := by
  rintro depth w - h
  cases h
  rfl

theorem reads_bool (b : Bool) : Reads bool (.bool b) b := by
  rintro depth w - h
  cases h
  rfl

theorem reads_natural (n : Nat) : Reads natural (.nat n) n := by
  rintro depth w - h
  cases h
  change (if 0 ≤ (n : Int) then some (n : Int).toNat else none) = some n
  rw [if_pos (Int.natCast_nonneg n), Int.toNat_natCast]

theorem reads_document (h : doc.Ordered) : Reads document doc doc :=
  fun _ _ hdepth hspells ↦ Written.value?_of_spells hspells h hdepth

theorem reads_choice {ofName? : String → Option α} {name : String} (h : ofName? name = some a) :
    Reads (choice ofName?) (.str name) a := by
  rintro depth w - hspells
  cases hspells
  rw [choice, h]

theorem Reads.optional (h : Reads read doc a) (hnull : doc ≠ .null) :
    Reads (Reader.optional read) doc (some a) := by
  intro depth w hdepth hspells
  have hread := h depth w hdepth hspells
  cases hspells with
  | null => exact absurd rfl hnull
  | bool | number | text | array | object => exact congrArg (Option.map some) hread

open Written (SpellsItems SpellsMembers)

theorem mapM_reads {write : α → Json} {items : List Written} {as : List α} {depth : Nat}
    (h : ∀ a ∈ as, Reads read (write a) a) (hspells : SpellsItems items (as.map write))
    (hdepth : ∀ doc ∈ as.map write, doc.nesting ≤ depth) : items.mapM (read depth) = some as := by
  induction as generalizing items with
  | nil =>
    cases hspells
    rfl
  | cons a as ih =>
    cases hspells with
    | cons hspells hrest =>
    rw [List.map_cons, List.forall_mem_cons] at hdepth
    obtain ⟨ha, has⟩ := List.forall_mem_cons.1 h
    rw [List.mapM_cons, ha depth _ hdepth.1 hspells, ih has hrest hdepth.2]
    rfl

theorem reads_list {write : α → Json} {as : List α} (h : ∀ a ∈ as, Reads read (write a) a) :
    Reads (list read) (.arr (as.map write)) as := by
  intro depth w hdepth hspells
  cases depth with
  | zero => exact absurd hdepth (Nat.not_succ_le_zero _)
  | succ depth =>
    cases hspells with
    | array hspells => exact mapM_reads h hspells (Json.nesting_arr_le.1 hdepth)

theorem mapM_reads_members {write : α → Json} {members : List (Option String × Written)}
    {d : Dict α} (depth : Nat) (h : ∀ entry ∈ d, Reads read (write entry.2) entry.2)
    (hspells : SpellsMembers members (d.map fun entry ↦ (entry.1, write entry.2)))
    (hdepth : ∀ entry ∈ d, (write entry.2).nesting ≤ depth) :
    (members.mapM fun (member : Option String × Written) ↦ do
      let key ← member.1
      let value ← read depth member.2
      some (key, value)) = some d := by
  induction d generalizing members with
  | nil =>
    cases hspells
    rfl
  | cons entry d ih =>
    cases hspells with
    | cons key hspells hrest =>
    obtain ⟨hentry, hd⟩ := List.forall_mem_cons.1 h
    obtain ⟨hle, hles⟩ := List.forall_mem_cons.1 hdepth
    rw [List.mapM_cons, ih hd hrest hles, hentry depth _ hle hspells]
    rfl

/-- A dictionary is read in whatever order its entries are spelled. -/
theorem reads_dict {write : α → Json} {d : Dict α} (hsorted : d.Sorted)
    (h : ∀ entry ∈ d, Reads read (write entry.2) entry.2) :
    Reads (dict read) (.obj (d.map fun entry ↦ (entry.1, write entry.2))) d := by
  intro depth w hdepth hspells
  cases depth with
  | zero => exact absurd hdepth (Nat.not_succ_le_zero _)
  | succ depth =>
    cases hspells with
    | object hspells hperm =>
    rename_i members pairs
    -- the entries in the order in which they are spelled
    obtain ⟨entries, rfl, hentries⟩ : ∃ entries : Dict α,
        pairs = entries.map (fun entry ↦ (entry.1, write entry.2)) ∧ List.Perm entries d :=
      (congrFun (congrFun (List.eq_map_comp_perm _) pairs) d).mpr hperm
    have hnesting := Json.nesting_obj_le.1 hdepth
    have hread := mapM_reads_members depth
      (fun entry hentry ↦ h entry (hentries.mem_iff.1 hentry)) hspells fun entry hentry ↦
        hnesting (entry.1, write entry.2) (List.mem_map.2 ⟨entry, hentries.mem_iff.1 hentry, rfl⟩)
    rw [dict, hread, Option.map_some, hsorted.ofList_eq_of_perm hentries]

/-! ## Records -/

variable {names : List String} {members : Dict Json} {name : String} {r : Record}

/-- A record is read from an object if it is read from its fields. -/
theorem reads_record {names : List String} {members : Dict Json} {ofRecord : Record → Option α}
    (hnodup : (members.map (·.1)).Nodup)
    (h : ∀ r : Record, r.Holds names members → ofRecord r = some a) :
    Reads (fun depth w ↦ (Record.read names depth w).bind ofRecord) (.object members) a := by
  intro depth w hdepth hspells
  obtain ⟨r, hread, hr⟩ := Record.exists_holds names hnodup hspells hdepth
  change (Record.read names depth w).bind ofRecord = _
  rw [hread, Option.bind_some, h r hr]

end Reader

namespace Record.Holds

open Reader (Reads)

variable {α : Type} {read : Reader α} {doc : Json} {a : α} {names : List String}
  {members : Dict Json} {name : String} {r : Record}

theorem lookup_eq_none (hr : r.Holds names members) (hname : name ∈ names)
    (hmember : members.get? name = none) : r.fields.lookup name = none := by
  have hrel := hr name hname
  rw [hmember] at hrel
  generalize r.fields.lookup name = found at hrel ⊢
  cases hrel
  rfl

theorem exists_lookup (hr : r.Holds names members) (hname : name ∈ names)
    (hmember : members.get? name = some doc) (h : Reads read doc a) :
    ∃ w, r.fields.lookup name = some w ∧ read r.depth w = some a := by
  have hrel := hr name hname
  rw [hmember] at hrel
  generalize r.fields.lookup name = found at hrel ⊢
  cases hrel with
  | some hw => exact ⟨_, rfl, h r.depth _ hw.2 hw.1⟩

/-- A required field is what the document has. -/
theorem required (hr : r.Holds names members) (hname : name ∈ names)
    (hmember : members.get? name = some doc) (h : Reads read doc a) :
    r.required name read = some a := by
  obtain ⟨w, hlookup, hread⟩ := hr.exists_lookup hname hmember h
  rw [Record.required, hlookup, Option.bind_some, hread]

/-- A field with a default is what the document has, if it has it. -/
theorem withDefault (hr : r.Holds names members) (hname : name ∈ names) (default : α)
    (hmember : members.get? name = some doc) (h : Reads read doc a) :
    r.withDefault name default read = some a := by
  obtain ⟨w, hlookup, hread⟩ := hr.exists_lookup hname hmember h
  simp only [Record.withDefault, hlookup, hread]

/-- A field with a default is the default if the document does not have it. -/
theorem withDefault_missing (hr : r.Holds names members) (hname : name ∈ names) (default : α)
    (read : Reader α) (hmember : members.get? name = none) :
    r.withDefault name default read = some default := by
  simp only [Record.withDefault, hr.lookup_eq_none hname hmember]

/-- A field that is written if it is there is read back, and its absence as well. -/
theorem optional {write : α → Json} {value : Option α} (hr : r.Holds names members)
    (hname : name ∈ names) (hmember : members.get? name = value.map write)
    (h : ∀ a, value = some a → Reads read (write a) a) (hnull : ∀ a, write a ≠ .null) :
    r.withDefault name none (Reader.optional read) = some value := by
  cases value with
  | none => exact hr.withDefault_missing hname none _ hmember
  | some a => exact hr.withDefault hname none hmember ((h a rfl).optional (hnull a))

theorem optional_text {value : Option String} (hr : r.Holds names members) (hname : name ∈ names)
    (hmember : members.get? name = value.map .str) :
    r.withDefault name none (Reader.optional Reader.text) = some value :=
  hr.optional hname hmember (fun s _ ↦ Reader.reads_text s) nofun

end Record.Holds

/-! ## From a text -/

namespace Reader

variable {α : Type} {read : Reader α} {doc : Json} {a : α}

/-- A value is read back from a document that is its own, and from each text of it, whatever the
order of the members: in particular from the compact one, which has them in the order of their
keys. -/
structure ReadsBack (read : Reader α) (doc : Json) (a : α) : Prop where
  reads : Reads read doc a
  text (w : Written) (h : w.Spells doc) : read.run w.render = some a
  compact : read.run doc.compact.toList = some a

theorem Reads.readsBack (h : Reads read doc a) (hdoc : doc.Readable Json.depthLimit) :
    ReadsBack read doc a := by
  have htext (w : Written) (hspells : w.Spells doc) : read.run w.render = some a := by
    rw [run, Written.parse_render (Written.plain_of_spells hspells hdoc.integral)]
    exact h Json.depthLimit w hdoc.nesting_le hspells
  refine ⟨h, htext, ?_⟩
  rw [Json.compact, String.toList_ofList, ← Written.render_ofJson]
  exact htext _ (Written.spells_ofJson doc)

end Reader

end AgentSession
