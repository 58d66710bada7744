import AgentSession.Dict
/-!
# Dictionaries of pairs

Look-up in a dictionary that was made from a list of pairs, and in one in which a value was replaced
or a key removed.

A list of pairs is itself looked up by `Dict.get?`, which finds the first pair with a key, while in
the dictionary made of it the last one wins. Where no key occurs twice, the two are the same
(`Dict.get?_ofList`).

Dictionaries that stand in the order of their keys are equal if their look-ups are
(`Dict.Sorted.ext`), so an equation between them is shown key by key.
-/

namespace AgentSession.Dict

universe u

variable {α : Type u}

@[simp] theorem get?_cons (k : String) (v : α) (rest : Dict α) (key : String) :
    get? ((k, v) :: rest) key = if k = key then some v else get? rest key := rfl

@[simp] theorem get?_append (d e : Dict α) (key : String) :
    get? (d ++ e) key = (get? d key).or (get? e key) := by
  induction d with
  | nil => rfl
  | cons p rest ih =>
    obtain ⟨k, v⟩ := p
    rw [List.cons_append, get?_cons, get?_cons, ih]
    split <;> rfl

theorem get?_insert (d : Dict α) (key : String) (value : α) (other : String) :
    (d.insert key value).get? other = if key = other then some value else d.get? other := by
  by_cases hother : key = other
  · rw [if_pos hother, ← hother, get?_insert_self]
  · rw [if_neg hother, get?_insert_of_ne d hother]

theorem has_insert (d : Dict α) (key : String) (value : α) (other : String) :
    (d.insert key value).has other = (decide (key = other) || d.has other) := by
  rw [has, get?_insert, has]
  split
  · rename_i hother
    rw [decide_eq_true hother, Bool.true_or, Option.isSome_some]
  · rename_i hother
    rw [decide_eq_false hother, Bool.false_or]

theorem get?_eq_none_of_notMem {d : Dict α} {key : String} (h : key ∉ d.map (·.1)) :
    d.get? key = none := by
  induction d with
  | nil => rfl
  | cons p rest ih =>
    rw [List.map_cons, List.mem_cons, not_or] at h
    obtain ⟨hne, hrest⟩ := h
    rw [get?_cons, if_neg (Ne.symm hne), ih hrest]

theorem get?_replace_self {d : Dict α} {key : String} (h : d.has key = true) (value : α) :
    (d.replace key value).get? key = some value := by
  induction d with
  | nil => cases h
  | cons p rest ih =>
    obtain ⟨k, v⟩ := p
    rw [replace]
    by_cases hk : k = key
    · rw [if_pos hk, get?_cons, if_pos rfl]
    · rw [has, get?_cons, if_neg hk] at h
      rw [if_neg hk, get?_cons, if_neg hk, ih h]

/-- To replace a value by itself changes nothing. -/
theorem replace_eq_self {d : Dict α} {key : String} {value : α} (h : d.get? key = some value) :
    d.replace key value = d := by
  induction d with
  | nil => rfl
  | cons p rest ih =>
    obtain ⟨k, v⟩ := p
    rw [get?_cons] at h
    rw [replace]
    split
    · rename_i hk
      rw [if_pos hk] at h
      rw [hk, Option.some.inj h]
    · rename_i hk
      rw [if_neg hk] at h
      rw [ih h]

theorem get?_replace_of_ne {d : Dict α} {key other : String} (h : key ≠ other) (value : α) :
    (d.replace key value).get? other = d.get? other := by
  induction d with
  | nil => rfl
  | cons p rest ih =>
    obtain ⟨k, v⟩ := p
    rw [replace]
    by_cases hk : k = key
    · rw [if_pos hk, get?_cons, get?_cons, hk, if_neg h, if_neg h]
    · rw [if_neg hk, get?_cons, get?_cons, ih]

/-- Of two values for one key, the second stays. -/
theorem replace_replace_self (d : Dict α) (key : String) (v w : α) :
    (d.replace key v).replace key w = d.replace key w := by
  induction d with
  | nil => rfl
  | cons p rest ih =>
    obtain ⟨k, u⟩ := p
    by_cases hk : k = key
    · simp [replace, hk]
    · simp [replace, hk, ih]

theorem replace_comm {key other : String} (h : key ≠ other) (d : Dict α) (v w : α) :
    (d.replace key v).replace other w = (d.replace other w).replace key v := by
  induction d with
  | nil => rfl
  | cons p rest ih =>
    obtain ⟨k, u⟩ := p
    by_cases hk : k = key
    · simp [replace, hk, h]
    · by_cases hother : k = other
      · simp [replace, hother, Ne.symm h]
      · simp [replace, hk, hother, ih]

/-- A value that takes the place of one that was just put in might as well have been put in. -/
theorem replace_insert_self (d : Dict α) (key : String) (v w : α) :
    (d.insert key v).replace key w = d.insert key w := by
  induction d with
  | nil => simp [insert, replace]
  | cons p rest ih =>
    obtain ⟨k, u⟩ := p
    by_cases hk : k = key
    · simp [insert, replace, hk]
    · by_cases hlt : key < k
      · simp [insert, replace, hk, hlt]
      · simp [insert, replace, hk, hlt, ih]

theorem keys_replace (d : Dict α) (key : String) (value : α) :
    (d.replace key value).map (·.1) = d.map (·.1) := by
  induction d with
  | nil => rfl
  | cons p rest ih =>
    obtain ⟨k, v⟩ := p
    rw [replace]
    split
    · rename_i hk
      rw [List.map_cons, List.map_cons, hk]
    · rw [List.map_cons, List.map_cons, ih]

/-- A value that was put under a free key is taken out again without a trace. -/
theorem erase_insert {d : Dict α} {key : String} (h : d.get? key = none) (value : α) :
    (d.insert key value).erase key = d := by
  induction d with
  | nil => simp [insert, erase]
  | cons p rest ih =>
    obtain ⟨k, v⟩ := p
    rw [get?_cons] at h
    split at h
    · cases h
    · rename_i hne
      rw [insert, if_neg hne]
      split
      · rw [erase, if_pos rfl]
      · rw [erase, if_neg hne, ih h]

theorem ensure_eq_self {d : Dict α} {key : String} (h : d.has key = true) (value : α) :
    d.ensure key value = d := by
  rw [ensure, if_pos h]

theorem get?_ensure_self (d : Dict α) (key : String) (value : α) :
    (d.ensure key value).get? key = (d.get? key).or (some value) := by
  rw [ensure, has]
  cases h : d.get? key with
  | none => rw [Option.isSome_none, if_neg Bool.false_ne_true, get?_insert_self, Option.none_or]
  | some v => rw [Option.isSome_some, if_pos rfl, h, Option.some_or]

/-! ## Dictionaries made from pairs -/

theorem get?_override (d : Dict α) {pairs : List (String × α)} (h : (pairs.map (·.1)).Nodup)
    (key : String) : (d.override pairs).get? key = (get? pairs key).or (d.get? key) := by
  induction pairs generalizing d with
  | nil => rfl
  | cons p pairs ih =>
    obtain ⟨k, v⟩ := p
    obtain ⟨hk, hpairs⟩ := List.nodup_cons.1 (List.map_cons ▸ h)
    have hinsert : d.override ((k, v) :: pairs) = (d.insert k v).override pairs := rfl
    rw [hinsert, ih (d.insert k v) hpairs, get?_cons]
    by_cases hkey : k = key
    · -- the pair is put in first, and no later one takes its place
      subst hkey
      rw [if_pos rfl, get?_eq_none_of_notMem hk, get?_insert_self, Option.none_or, Option.some_or]
    · rw [if_neg hkey, get?_insert_of_ne d hkey]

/-- Where no key occurs twice, the dictionary made from some pairs holds what they say. -/
theorem get?_ofList {pairs : List (String × α)} (h : (pairs.map (·.1)).Nodup) (key : String) :
    (ofList pairs).get? key = get? pairs key := by
  have hoverride : ofList pairs = override [] pairs := rfl
  rw [hoverride, get?_override [] h, get?_nil, Option.or_none]

/-! ## The order of keys -/

theorem mem_insert {d : Dict α} {key : String} {value : α} {p : String × α}
    (h : p ∈ d.insert key value) : p = (key, value) ∨ p ∈ d := by
  induction d with
  | nil => exact .inl (List.mem_singleton.1 h)
  | cons q rest ih =>
    rw [insert] at h
    split at h
    · exact (List.mem_cons.1 h).imp_right (List.mem_cons_of_mem _)
    · split at h
      · exact List.mem_cons.1 h
      · rcases List.mem_cons.1 h with rfl | h
        · exact .inr List.mem_cons_self
        · exact (ih h).imp_right (List.mem_cons_of_mem _)

theorem mem_of_get? {d : Dict α} {key : String} {value : α} (h : d.get? key = some value) :
    (key, value) ∈ d := by
  induction d with
  | nil => cases h
  | cons q rest ih =>
    obtain ⟨k, v⟩ := q
    rw [get?_cons] at h
    split at h
    · rename_i heq
      obtain rfl := Option.some.inj h
      exact heq ▸ List.mem_cons_self
    · exact List.mem_cons_of_mem _ (ih h)

theorem mem_replace {d : Dict α} {key : String} {value : α} {p : String × α}
    (h : p ∈ d.replace key value) : p = (key, value) ∨ p ∈ d := by
  induction d with
  | nil => cases h
  | cons q rest ih =>
    rw [replace] at h
    split at h
    · exact (List.mem_cons.1 h).imp_right (List.mem_cons_of_mem _)
    · rcases List.mem_cons.1 h with rfl | h
      · exact .inr List.mem_cons_self
      · exact (ih h).imp_right (List.mem_cons_of_mem _)

theorem get?_eq_some_iff {d : Dict α} (h : (d.map (·.1)).Nodup) {key : String} {value : α} :
    d.get? key = some value ↔ (key, value) ∈ d := by
  refine ⟨mem_of_get?, fun hmem ↦ ?_⟩
  induction d with
  | nil => cases hmem
  | cons p rest ih =>
    obtain ⟨hp, hrest⟩ := List.nodup_cons.1 h
    rw [get?_cons]
    rcases List.mem_cons.1 hmem with rfl | hmem
    · exact if_pos rfl
    · rw [if_neg, ih hrest hmem]
      rintro rfl
      exact hp (List.mem_map.2 ⟨_, hmem, rfl⟩)

/-- Look-up does not depend on the order of pairs, if no key occurs twice. -/
theorem get?_of_perm {d e : Dict α} (hperm : List.Perm d e) (h : (e.map (·.1)).Nodup)
    (key : String) : d.get? key = e.get? key := by
  have hd : (d.map (·.1)).Nodup := (hperm.map _).nodup_iff.2 h
  refine Option.ext fun value ↦ ?_
  rw [get?_eq_some_iff hd, get?_eq_some_iff h, hperm.mem_iff]

instance (d : Dict α) : Decidable d.Sorted := inferInstanceAs (Decidable (List.Pairwise _ d))

theorem sorted_iff_keys {d : Dict α} : d.Sorted ↔ (d.map (·.1)).Pairwise (· < ·) :=
  List.pairwise_map.symm

theorem Sorted.replace {d : Dict α} (h : d.Sorted) (key : String) (value : α) :
    (Dict.replace d key value).Sorted := by
  rw [sorted_iff_keys, keys_replace, ← sorted_iff_keys]
  exact h

theorem Sorted.insert {d : Dict α} (h : d.Sorted) (key : String) (value : α) :
    (Dict.insert d key value).Sorted := by
  induction d with
  | nil => exact List.pairwise_singleton _ _
  | cons q rest ih =>
    obtain ⟨k, v⟩ := q
    obtain ⟨hk, hrest⟩ := List.pairwise_cons.1 h
    rw [Dict.insert]
    split
    · rename_i heq
      exact List.pairwise_cons.2 ⟨heq ▸ hk, hrest⟩
    · rename_i hne
      split
      · rename_i hlt
        refine List.pairwise_cons.2 ⟨fun p hp ↦ ?_, h⟩
        rcases List.mem_cons.1 hp with rfl | hp
        · exact hlt
        · exact String.lt_trans hlt (hk p hp)
      · rename_i hge
        refine List.pairwise_cons.2 ⟨fun p hp ↦ ?_, ih hrest⟩
        rcases mem_insert hp with rfl | hp
        · exact String.not_le.1 fun hle ↦ hne (String.le_antisymm (String.not_lt.1 hge) hle)
        · exact hk p hp

theorem Sorted.override {d : Dict α} (h : d.Sorted) (pairs : List (String × α)) :
    (Dict.override d pairs).Sorted := by
  induction pairs generalizing d with
  | nil => exact h
  | cons p pairs ih => exact ih (h.insert p.1 p.2)

theorem mem_override {d : Dict α} {pairs : List (String × α)} {p : String × α}
    (h : p ∈ d.override pairs) : p ∈ pairs ∨ p ∈ d := by
  induction pairs generalizing d with
  | nil => exact .inr h
  | cons q pairs ih =>
    rcases ih h with hp | hp
    · exact .inl (List.mem_cons_of_mem _ hp)
    · rcases mem_insert hp with rfl | hp
      · exact .inl List.mem_cons_self
      · exact .inr hp

theorem sorted_ofList (pairs : List (String × α)) : (ofList pairs).Sorted :=
  Sorted.override List.Pairwise.nil pairs

theorem mem_ofList {pairs : List (String × α)} {p : String × α} (h : p ∈ ofList pairs) :
    p ∈ pairs :=
  (mem_override (d := []) h).resolve_right List.not_mem_nil

theorem erase_sublist (d : Dict α) (key : String) : (d.erase key).Sublist d := by
  induction d with
  | nil => exact List.Sublist.refl _
  | cons q rest ih =>
    rw [erase]
    split
    · exact List.sublist_cons_self _ _
    · exact ih.cons_cons _

theorem Sorted.erase {d : Dict α} (h : d.Sorted) (key : String) : (Dict.erase d key).Sorted :=
  List.Pairwise.sublist (erase_sublist d key) h

/-- Behind a key there is none that is not greater. -/
theorem get?_eq_none_of_le {d : Dict α} {key other : String} (h : ∀ p ∈ d, key < p.1)
    (hother : other ≤ key) : d.get? other = none := by
  refine get?_eq_none_of_notMem fun hmem ↦ ?_
  obtain ⟨p, hp, rfl⟩ := List.mem_map.1 hmem
  exact String.not_le.2 (h p hp) hother

/-- Where keys stand in order, a key that is removed is gone. -/
theorem Sorted.get?_erase_self {d : Dict α} (h : d.Sorted) (key : String) :
    (Dict.erase d key).get? key = none := by
  induction d with
  | nil => rfl
  | cons q rest ih =>
    obtain ⟨k, v⟩ := q
    obtain ⟨hk, hrest⟩ := List.pairwise_cons.1 h
    rw [Dict.erase]
    split
    · rename_i heq
      exact get?_eq_none_of_le hk (heq ▸ String.le_refl k)
    · rename_i hne
      rw [get?_cons, if_neg hne, ih hrest]

/-- A value that was taken out goes back to where it stood, since its key has only one place. -/
theorem Sorted.insert_erase {d : Dict α} (h : d.Sorted) {key : String} {value : α}
    (hvalue : d.get? key = some value) : (Dict.erase d key).insert key value = d := by
  induction d with
  | nil => cases hvalue
  | cons q rest ih =>
    obtain ⟨k, v⟩ := q
    obtain ⟨hk, hrest⟩ := List.pairwise_cons.1 h
    rw [get?_cons] at hvalue
    rw [Dict.erase]
    split
    · rename_i heq
      subst heq
      rw [if_pos rfl] at hvalue
      obtain rfl := Option.some.inj hvalue
      cases rest with
      | nil => rfl
      | cons next rest =>
        have hlt : k < next.1 := hk next List.mem_cons_self
        have hne : next.1 ≠ k := fun heq ↦ String.lt_irrefl k (heq ▸ hlt)
        rw [Dict.insert, if_neg hne, if_pos hlt]
    · rename_i hne
      rw [if_neg hne] at hvalue
      have hlt : k < key := hk _ (mem_of_get? hvalue)
      rw [Dict.insert, if_neg hne, if_neg (String.lt_asymm hlt), ih hrest hvalue]

theorem Sorted.get?_erase {d : Dict α} (h : d.Sorted) (key other : String) :
    (Dict.erase d key).get? other = if key = other then none else d.get? other := by
  by_cases hother : key = other
  · rw [if_pos hother, ← hother, h.get?_erase_self]
  · rw [if_neg hother, get?_erase_of_ne d hother]

theorem Sorted.has_erase {d : Dict α} (h : d.Sorted) (key other : String) :
    (Dict.erase d key).has other = (!decide (key = other) && d.has other) := by
  rw [has, h.get?_erase, has]
  split
  · rename_i hother
    rw [decide_eq_true hother, Bool.not_true, Bool.false_and, Option.isSome_none]
  · rename_i hother
    rw [decide_eq_false hother, Bool.not_false, Bool.true_and]

/-- A key that is there is removed with its first pair. -/
theorem length_erase {d : Dict α} {key : String} {value : α} (h : d.get? key = some value) :
    (d.erase key).length + 1 = d.length := by
  induction d with
  | nil => cases h
  | cons q rest ih =>
    rw [get?_cons] at h
    rw [erase]
    split
    · rfl
    · rename_i hne
      rw [if_neg hne] at h
      rw [List.length_cons, ih h, List.length_cons]

theorem eq_nil_of_get?_eq_none {d : Dict α} (h : ∀ key, d.get? key = none) : d = [] := by
  cases d with
  | nil => rfl
  | cons q rest =>
    have hq := h q.1
    rw [get?_cons, if_pos rfl] at hq
    cases hq

/-! ## Equal look-ups -/

/-- Where keys stand in order, equal look-ups make equal dictionaries. -/
theorem Sorted.ext {d e : Dict α} (hd : d.Sorted) (he : e.Sorted)
    (h : ∀ key, d.get? key = e.get? key) : d = e := by
  induction d generalizing e with
  | nil => exact (eq_nil_of_get?_eq_none fun key ↦ (h key).symm).symm
  | cons p d ih =>
    obtain ⟨k, v⟩ := p
    obtain ⟨hk, hrest⟩ := List.pairwise_cons.1 hd
    cases e with
    | nil => exact eq_nil_of_get?_eq_none h
    | cons q e =>
      obtain ⟨l, w⟩ := q
      obtain ⟨hl, hrest'⟩ := List.pairwise_cons.1 he
      -- the first keys are the same, as neither is found behind the other
      have hkl : k = l := by
        apply Decidable.byContradiction
        intro hne
        have hfirst := h k
        have hsecond := h l
        rw [get?_cons, if_pos rfl, get?_cons, if_neg (Ne.symm hne)] at hfirst
        rw [get?_cons, if_neg hne, get?_cons, if_pos rfl] at hsecond
        have hlt : k < l := String.not_le.1 fun hle ↦ by
          rw [get?_eq_none_of_le hk hle] at hsecond
          cases hsecond
        rw [get?_eq_none_of_le hl (String.not_lt.1 (String.lt_asymm hlt))] at hfirst
        cases hfirst
      subst hkl
      have hvalue := h k
      rw [get?_cons, if_pos rfl, get?_cons, if_pos rfl] at hvalue
      obtain rfl := Option.some.inj hvalue
      refine congrArg ((k, v) :: ·) (ih hrest hrest' fun key ↦ ?_)
      by_cases hkey : k = key
      · rw [← hkey, get?_eq_none_of_le hk (String.le_refl k),
          get?_eq_none_of_le hl (String.le_refl k)]
      · have hvalues := h key
        rw [get?_cons, if_neg hkey, get?_cons, if_neg hkey] at hvalues
        exact hvalues

theorem Sorted.nodup_keys {d : Dict α} (h : d.Sorted) : (d.map (·.1)).Nodup := by
  refine List.Pairwise.imp ?_ (sorted_iff_keys.1 h)
  rintro key _ hlt rfl
  exact String.lt_irrefl key hlt

/-- Pairs in any order make up the dictionary that they are the pairs of. -/
theorem Sorted.ofList_eq_of_perm {d : Dict α} (hd : d.Sorted) {pairs : List (String × α)}
    (hperm : pairs.Perm d) : ofList pairs = d := by
  have hnodup : (pairs.map (·.1)).Nodup := (hperm.map _).nodup_iff.2 hd.nodup_keys
  refine (sorted_ofList pairs).ext hd fun key ↦ ?_
  rw [get?_ofList hnodup, get?_of_perm hperm hd.nodup_keys]

/-- Of dictionaries that override each other, it does not matter which two are joined first. -/
theorem Sorted.override_assoc {d e f : Dict α} (hd : d.Sorted) (he : e.Sorted) (hf : f.Sorted) :
    (Dict.override d e).override f = d.override (Dict.override e f) := by
  refine ((hd.override e).override f).ext (hd.override _) fun key ↦ ?_
  rw [get?_override _ hf.nodup_keys, get?_override _ he.nodup_keys,
    get?_override _ (he.override f).nodup_keys, get?_override _ hf.nodup_keys, Option.or_assoc]

/-- A dictionary with another value for a key, or with none. -/
def update (d : Dict α) (key : String) : Option α → Dict α
  | some value => d.insert key value
  | none => d.erase key

theorem Sorted.update {d : Dict α} (h : d.Sorted) (key : String) (value : Option α) :
    (Dict.update d key value).Sorted := by
  cases value with
  | none => exact h.erase key
  | some v => exact h.insert key v

theorem Sorted.get?_update {d : Dict α} (h : d.Sorted) (key : String) (value : Option α)
    (other : String) :
    (Dict.update d key value).get? other = if key = other then value else d.get? other := by
  cases value with
  | none => exact h.get?_erase key other
  | some v => exact d.get?_insert key v other

/-- Different keys may be updated in either order. -/
theorem Sorted.update_comm {d : Dict α} (h : d.Sorted) {key other : String} (hne : key ≠ other)
    (v w : Option α) :
    (d.update key v).update other w = (d.update other w).update key v := by
  have hv := h.update key v
  have hw := h.update other w
  refine (hv.update other w).ext (hw.update key v) fun name ↦ ?_
  rw [hv.get?_update, h.get?_update, hw.get?_update, h.get?_update]
  by_cases hname : other = name
  · rw [if_pos hname, if_pos hname, if_neg (hname ▸ hne)]
  · rw [if_neg hname, if_neg hname]

/-- To replace a value or to create it is to insert one. -/
theorem Sorted.replace_ensure {d : Dict α} (h : d.Sorted) (key : String) (v w : α) :
    (d.ensure key v).replace key w = d.insert key w := by
  rw [ensure]
  split
  · rename_i hhas
    refine (h.replace key w).ext (h.insert key w) fun name ↦ ?_
    rw [get?_insert]
    split
    · rename_i hname
      rw [← hname, get?_replace_self hhas]
    · rename_i hname
      rw [get?_replace_of_ne hname]
  · exact replace_insert_self d key v w

end AgentSession.Dict
