/-!
# Binary numbers of 64 bits

A finite double is kept as what it denotes: a sign and a magnitude `significand · 2 ^ exponent`
with a significand below `2 ^ 53`. Everything is exact arithmetic on natural numbers, so that the
arithmetic of doubles can be reasoned about; a result that is no double is rounded once, to the
nearest one, and of two equally near ones to the one with an even significand.

A magnitude is in normal form when its significand is at least `2 ^ 52` or its exponent is the
least one, `-1074`. Rounding produces normal forms only, so two magnitudes of one value are equal.
-/

namespace AgentSession

/-- The magnitude `significand · 2 ^ exponent` of a double. -/
structure Magnitude where
  /-- The significand, below `2 ^ 53`. -/
  significand : Nat
  exponent : Int
deriving DecidableEq, Repr

namespace Magnitude

def leastExponent : Int := -1074

def greatestExponent : Int := 971

def zero : Magnitude := ⟨0, leastExponent⟩

/-- The quotient of `num` by `den`, rounded to the nearest natural number; a half goes to the even
neighbour. -/
def roundDiv (num den : Nat) : Nat :=
  let q := num / den
  let r := num % den
  if 2 * r < den then q
  else if den < 2 * r then q + 1
  else if q % 2 = 0 then q else q + 1

/-- The fraction `num / den · 2 ^ (-e)` as a numerator and a denominator. -/
def shifted (num den : Nat) (e : Int) : Nat × Nat :=
  if 0 ≤ e then (num, den * Nat.pow 2 e.toNat) else (num * Nat.pow 2 (-e).toNat, den)

/-- The exponent at which the fraction `num / den`, which is not zero, has a significand of 53
bits, or the least exponent if that is greater. -/
def exponentOf (num den : Nat) : Int :=
  let guess : Int := (num.log2 : Int) - den.log2
  let (n, d) := shifted num den guess
  max leastExponent (if n < d then guess - 53 else guess - 52)

/-- The double nearest to the fraction `num / den`, or `none` if it lies beyond all of them. -/
def round (num den : Nat) : Option Magnitude :=
  if num = 0 then some zero
  else
    let e := exponentOf num den
    let (n, d) := shifted num den e
    let s := roundDiv n d
    let m : Magnitude := if s = Nat.pow 2 53 then ⟨Nat.pow 2 52, e + 1⟩ else ⟨s, e⟩
    if m.exponent ≤ greatestExponent then some m else none

def fraction (m : Magnitude) : Nat × Nat :=
  if 0 ≤ m.exponent then (m.significand * Nat.pow 2 m.exponent.toNat, 1)
  else (m.significand, Nat.pow 2 (-m.exponent).toNat)

def mul (a b : Magnitude) : Option Magnitude :=
  let (an, ad) := a.fraction
  let (bn, bd) := b.fraction
  round (an * bn) (ad * bd)

def div (a b : Magnitude) : Option Magnitude :=
  let (an, ad) := a.fraction
  let (bn, bd) := b.fraction
  round (an * bd) (ad * bn)

def ofNat (n : Nat) : Option Magnitude := round n 1

example : ofNat 1 = some ⟨Nat.pow 2 52, -52⟩ := by decide +kernel
example : ofNat (Nat.pow 2 53 + 1) = some ⟨Nat.pow 2 52, 1⟩ := by decide +kernel
example : round 1 (Nat.pow 10 400) = some zero := by decide +kernel
example : ofNat (Nat.pow 10 309) = none := by decide +kernel

end Magnitude

structure Binary64 where
  negative : Bool
  magnitude : Magnitude
deriving DecidableEq, Repr

/-- Whether two doubles are equal as numbers, so that the two zeros are. -/
def Binary64.same (a b : Binary64) : Bool :=
  a == b || (a.magnitude.significand == 0 && b.magnitude.significand == 0)

end AgentSession
