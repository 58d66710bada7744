import AgentSession.Dict
import AgentSession.Number.Literal
/-!
# JSON documents

A JSON document is a value of the type `Json`. The members of an object are a dictionary: they
have no order of their own, and a key occurs once.

Two notions of equality are needed. `Json.same` is the equality that a document is tested by: it
tells an integer from a double of the same size, and identifies the two zeros among the doubles.
Equality of representations tells the two zeros apart as well.
-/

namespace AgentSession

/-- A JSON document. -/
inductive Json where
  | null
  | bool (b : Bool)
  | num (n : Number)
  | str (s : String)
  | arr (items : List Json)
  /-- Documents by key, in increasing order of the keys. -/
  | obj (members : List (String × Json))
deriving Repr, Inhabited

namespace Json

def empty : Json := .obj []

def object (members : List (String × Json)) : Json := .obj (Dict.ofList members)

def int (i : Int) : Json := .num (.int i)

def nat (n : Nat) : Json := .int n

def isNull : Json → Bool
  | .null => true
  | _ => false

def text? : Json → Option String
  | .str s => some s
  | _ => none

def items? : Json → Option (List Json)
  | .arr items => some items
  | _ => none

/-- The integer that a document is, if it fits in 64 bits with a sign. -/
def int64? : Json → Option Int
  | .num (.int i) => if -(Nat.pow 2 63 : Nat) ≤ i ∧ i < (Nat.pow 2 63 : Nat) then some i else none
  | _ => none

/-- The member of an object with a given key; no other document has members. -/
def member? (key : String) : Json → Option Json
  | .obj members => Dict.get? members key
  | _ => none

/-! ## Equality -/

mutual

/-- Whether two documents are the same. -/
def same : Json → Json → Bool
  | .null, .null => true
  | .bool a, .bool b => a == b
  | .num a, .num b => a.same b
  | .str a, .str b => a == b
  | .arr a, .arr b => sameItems a b
  | .obj a, .obj b => sameMembers a b
  | _, _ => false

def sameItems : List Json → List Json → Bool
  | [], [] => true
  | a :: as, b :: bs => same a b && sameItems as bs
  | _, _ => false

def sameMembers : List (String × Json) → List (String × Json) → Bool
  | [], [] => true
  | (k, a) :: as, (l, b) :: bs => k == l && (same a b && sameMembers as bs)
  | _, _ => false

end

mutual

/-- Decides whether two representations are equal. -/
def decEq : (a b : Json) → Decidable (a = b)
  | .null, b => match b with
    | .null => isTrue rfl
    | .bool _ | .num _ | .str _ | .arr _ | .obj _ => isFalse nofun
  | .bool x, b => match b with
    | .bool y => decidable_of_iff (x = y) (by simp)
    | .null | .num _ | .str _ | .arr _ | .obj _ => isFalse nofun
  | .num x, b => match b with
    | .num y => decidable_of_iff (x = y) (by simp)
    | .null | .bool _ | .str _ | .arr _ | .obj _ => isFalse nofun
  | .str x, b => match b with
    | .str y => decidable_of_iff (x = y) (by simp)
    | .null | .bool _ | .num _ | .arr _ | .obj _ => isFalse nofun
  | .arr x, b => match b with
    | .arr y => @decidable_of_iff _ (x = y) (by simp) (decEqItems x y)
    | .null | .bool _ | .num _ | .str _ | .obj _ => isFalse nofun
  | .obj x, b => match b with
    | .obj y => @decidable_of_iff _ (x = y) (by simp) (decEqMembers x y)
    | .null | .bool _ | .num _ | .str _ | .arr _ => isFalse nofun

def decEqItems : (as bs : List Json) → Decidable (as = bs)
  | [], [] => isTrue rfl
  | [], _ :: _ => isFalse nofun
  | _ :: _, [] => isFalse nofun
  | a :: as, b :: bs =>
    have := decEq a b
    have := decEqItems as bs
    decidable_of_iff (a = b ∧ as = bs) (by simp)

def decEqMembers : (as bs : List (String × Json)) → Decidable (as = bs)
  | [], [] => isTrue rfl
  | [], _ :: _ => isFalse nofun
  | _ :: _, [] => isFalse nofun
  | (k, a) :: as, (l, b) :: bs =>
    have := decEq a b
    have := decEqMembers as bs
    decidable_of_iff ((k = l ∧ a = b) ∧ as = bs) (by simp)

end

instance : DecidableEq Json := decEq

/-! ## Well-formed documents -/

mutual

/-- Every object in a document has its members in increasing order of their keys. -/
def Ordered : Json → Prop
  | .arr items => OrderedItems items
  | .obj members => Dict.Sorted members ∧ OrderedMembers members
  | .null | .bool _ | .num _ | .str _ => True

def OrderedItems : List Json → Prop
  | [] => True
  | item :: items => Ordered item ∧ OrderedItems items

def OrderedMembers : List (String × Json) → Prop
  | [] => True
  | (_, value) :: members => Ordered value ∧ OrderedMembers members

end

end Json

end AgentSession
