import AgentSession.Number.Binary64
import AgentSession.Text.Decimal
/-!
# Number literals

A JSON number literal without a fraction and an exponent that fits in 64 bits, signed or unsigned,
is an integer. Every other literal is a double.

## Reading a double

The digits of the literal are gathered into a word of 64 bits. A digit before the point that no
longer fits counts as one factor of ten; the first digit after the point that no longer fits ends
the gathering. The word is rounded to a double and scaled by the power of ten that is left, in one
multiplication or division by a power up to `10 ^ 308`; a smaller literal is divided by `10 ^ 308`
first. Each of these steps rounds, so the result may differ from the nearest double in its last
bit. A literal that leaves the range of doubles upwards has no value.
-/

namespace AgentSession

/-- A JSON number: an integer of 64 bits, signed or unsigned, or a double. -/
inductive Number where
  /-- An integer from `-2 ^ 63` to `2 ^ 64 - 1`. -/
  | int (i : Int)
  | double (d : Binary64)
deriving DecidableEq, Repr

/-- Whether two numbers are the same: an integer is never a double, and the two zeros are one. -/
def Number.same : Number → Number → Bool
  | .int i, .int j => i == j
  | .double a, .double b => a.same b
  | _, _ => false

structure Literal where
  negative : Bool := false
  whole : List Nat
  fraction : Option (List Nat) := none
  exponent : Option Int := none
deriving DecidableEq, Repr

namespace Literal

/-- One more than the greatest word. -/
def wordBound : Nat := Nat.pow 2 64

/-- Gathers digits before the point into a word, and counts those that do not fit. After the first
of them, no digit is taken. -/
def gatherWhole (digits : List Nat) : Nat × Nat :=
  digits.foldl (fun (word, dropped) d ↦
    if dropped = 0 ∧ word * 10 + d < wordBound then (word * 10 + d, 0) else (word, dropped + 1))
    (0, 0)

/-- Gathers digits after the point into a word as long as they fit, and counts them. -/
def gatherFraction (word : Nat) (taken : Nat) : List Nat → Nat × Nat
  | [] => (word, taken)
  | d :: digits =>
    if word * 10 + d < wordBound then gatherFraction (word * 10 + d) (taken + 1) digits
    else (word, taken)

def greatestPower : Nat := 308

def powerOfTen (k : Nat) : Magnitude := (Magnitude.ofNat (Nat.pow 10 k)).getD .zero

/-- Divides by the greatest power a number of times; zero stays as it is. -/
def divideDown : Nat → Magnitude → Option Magnitude
  | 0, m => some m
  | steps + 1, m =>
    if m.significand = 0 then some m
    else (m.div (powerOfTen greatestPower)).bind (divideDown steps)

/-- Divides by `10 ^ k`: by the greatest power as long as more is left, then by the rest. -/
def scaleDown (m : Magnitude) (k : Nat) : Option Magnitude :=
  let steps := (k - 1) / greatestPower
  (divideDown steps m).bind fun m ↦ m.div (powerOfTen (k - greatestPower * steps))

def scale (word : Nat) (power : Int) : Option Magnitude := do
  let m ← Magnitude.ofNat word
  if power < 0 then scaleDown m (-power).toNat
  else if power.toNat ≤ greatestPower then m.mul (powerOfTen power.toNat)
  else if m.significand = 0 then some m
  else none

def magnitude (l : Literal) : Option Magnitude :=
  let (word, dropped) := gatherWhole l.whole
  let (word, taken) := gatherFraction word 0 (l.fraction.getD [])
  scale word ((dropped : Int) - taken + l.exponent.getD 0)

/-- The integer that a literal denotes, if it is spelled as one, fits, and is not a negative
zero. -/
def integer? (l : Literal) : Option Int :=
  match l.fraction, l.exponent with
  | none, none =>
    let n := Decimal.ofDigits l.whole
    if l.negative then (if 0 < n ∧ n ≤ Nat.pow 2 63 then some (-(n : Int)) else none)
    else if n < wordBound then some (n : Int) else none
  | _, _ => none

/-- The number that a literal denotes, or `none` if it is beyond the range of doubles. -/
def value (l : Literal) : Option Number :=
  match l.integer? with
  | some i => some (.int i)
  | none => l.magnitude.map fun m ↦ .double ⟨l.negative, m⟩

/-! ## The grammar of literals -/

def spanDigits : List Char → List Nat × List Char
  | [] => ([], [])
  | c :: rest =>
    if '0' ≤ c ∧ c ≤ '9' then
      let (ds, rest) := spanDigits rest
      ((c.toNat - '0'.toNat) :: ds, rest)
    else ([], c :: rest)

def parseExponent : List Char → Option (Option Int)
  | [] => some none
  | c :: rest =>
    if c = 'e' ∨ c = 'E' then
      let (minus, rest) := match rest with
        | '-' :: rest => (true, rest)
        | '+' :: rest => (false, rest)
        | rest => (false, rest)
      match spanDigits rest with
      | ([], _) => none
      | (ds, []) =>
        let n := Decimal.ofDigits ds
        some (some (if minus then -(n : Int) else n))
      | _ => none
    else none

/-- Reads a literal, which is all of the text: an optional minus sign, digits without a needless
zero in front, and optionally a fraction and an exponent. -/
def parse (text : List Char) : Option Literal :=
  let (negative, text) := match text with
    | '-' :: rest => (true, rest)
    | text => (false, text)
  let (whole, text) := spanDigits text
  match whole with
  | [] => none
  | 0 :: _ :: _ => none
  | _ =>
    match text with
    | '.' :: text =>
      match spanDigits text with
      | ([], _) => none
      | (ds, text) => (parseExponent text).map fun e ↦ ⟨negative, whole, some ds, e⟩
    | text => (parseExponent text).map fun e ↦ ⟨negative, whole, none, e⟩

example :
    parse ['-', '1', '.', '5', '0', 'e', '+', '3'] = some ⟨true, [1], some [5, 0], some 3⟩ := by
  decide +kernel
example : parse ['0', '1'] = none := by decide +kernel
example : (parse ['-', '0']).bind value = some (.double ⟨true, .zero⟩) := by decide +kernel
example : (parse ['1', 'e', '9', '9', '9']).bind value = none := by decide +kernel

end Literal

end AgentSession
