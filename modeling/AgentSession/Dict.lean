/-!
# Dictionaries

A dictionary is a list of pairs in increasing order of their keys, so that a dictionary with given
contents has one representation and equality is equality of contents. The order of keys is the
order of their code points, which is also the order of their UTF-8 bytes.

`Dict.insert` replaces or inserts in one pass, which makes its look-up laws hold for every list
of pairs; the order is needed only where two dictionaries are compared.
-/

namespace AgentSession

universe u

variable {α : Type u}

/-- A finite map from strings. -/
abbrev Dict (α : Type u) := List (String × α)

namespace Dict

def get? (d : Dict α) (key : String) : Option α :=
  match d with
  | [] => none
  | (k, v) :: rest => if k = key then some v else get? rest key

def insert (d : Dict α) (key : String) (value : α) : Dict α :=
  match d with
  | [] => [(key, value)]
  | (k, v) :: rest =>
    if k = key then (key, value) :: rest
    else if key < k then (key, value) :: (k, v) :: rest
    else (k, v) :: insert rest key value

/-- Another value for a key that has one; nothing else is changed. -/
def replace (d : Dict α) (key : String) (value : α) : Dict α :=
  match d with
  | [] => []
  | (k, v) :: rest => if k = key then (key, value) :: rest else (k, v) :: replace rest key value

def erase (d : Dict α) (key : String) : Dict α :=
  match d with
  | [] => []
  | (k, v) :: rest => if k = key then rest else (k, v) :: erase rest key

def has (d : Dict α) (key : String) : Bool := (d.get? key).isSome

/-- Inserts a value for a key that has none. -/
def ensure (d : Dict α) (key : String) (value : α) : Dict α :=
  if d.has key then d else d.insert key value

/-- The dictionary of a list of pairs, of which the later ones win. -/
def ofList (pairs : List (String × α)) : Dict α :=
  pairs.foldl (fun d p ↦ insert d p.1 p.2) []

/-- Two dictionaries in one; where both have a key, the second wins. -/
def override (d e : Dict α) : Dict α :=
  e.foldl (fun d p ↦ insert d p.1 p.2) d

/-- The keys stand in increasing order, and none twice. -/
def Sorted (d : Dict α) : Prop := d.Pairwise fun a b ↦ a.1 < b.1

/-! ## Look-up after each operation -/

@[simp] theorem get?_nil (key : String) : get? ([] : Dict α) key = none := rfl

@[simp] theorem get?_insert_self (d : Dict α) (key : String) (value : α) :
    get? (insert d key value) key = some value := by
  induction d with
  | nil => simp [insert, get?]
  | cons p rest ih =>
    obtain ⟨k, v⟩ := p
    by_cases hk : k = key
    · simp [insert, get?, hk]
    · by_cases hlt : key < k
      · simp [insert, get?, hk, hlt]
      · simp [insert, get?, hk, hlt, ih]

theorem get?_insert_of_ne (d : Dict α) {key other : String} (h : key ≠ other) (value : α) :
    get? (insert d key value) other = get? d other := by
  induction d with
  | nil => simp [insert, get?, h]
  | cons p rest ih =>
    obtain ⟨k, v⟩ := p
    by_cases hk : k = key
    · subst hk; simp [insert, get?, h]
    · by_cases hlt : key < k
      · simp [insert, get?, hk, hlt, h]
      · simp only [insert, get?, hk, hlt, if_false, ih]

theorem get?_erase_of_ne (d : Dict α) {key other : String} (h : key ≠ other) :
    get? (erase d key) other = get? d other := by
  induction d with
  | nil => rfl
  | cons p rest ih =>
    obtain ⟨k, v⟩ := p
    by_cases hk : k = key
    · subst hk; simp [erase, get?, h]
    · simp only [erase, get?, hk, if_false, ih]

end Dict

end AgentSession
