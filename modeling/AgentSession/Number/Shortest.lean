import AgentSession.Number.Binary64
/-!
# The shortest decimal of a double

Among the decimals that read back as a given double there are some with the fewest digits, and of
those the one nearest to the double is its shortest decimal. It is found by exact arithmetic: the
reals that round to the double form an interval, whose ends belong to it exactly when the
significand is even, and for one, two, … seventeen digits the two neighbours of the double on that
decimal grid are tested. If a point of a grid lies in the interval, so does one of these two.
-/

namespace AgentSession

/-- The decimal `digits · 10 ^ power`. -/
structure Scaled where
  digits : Nat
  power : Int
deriving DecidableEq, Repr

namespace Shortest

/-- A positive magnitude with the interval of reals that round to it, as numerators over one
denominator. -/
structure Interval where
  low : Nat
  mid : Nat
  high : Nat
  den : Nat
  closed : Bool
deriving DecidableEq, Repr

/-- The interval of a magnitude: half a unit to both sides, but a quarter below a power of two
whose lower neighbours lie twice as dense. -/
def Interval.of (m : Magnitude) : Interval :=
  let below := if m.significand = Nat.pow 2 52 ∧ Magnitude.leastExponent < m.exponent then 1 else 2
  let e := m.exponent - 2
  let s := 4 * m.significand
  let closed := m.significand % 2 = 0
  if 0 ≤ e then
    let u := Nat.pow 2 e.toNat
    ⟨(s - below) * u, s * u, (s + 2) * u, 1, closed⟩
  else ⟨s - below, s, s + 2, Nat.pow 2 (-e).toNat, closed⟩

def Interval.scaled (i : Interval) (power : Int) : Interval :=
  if 0 ≤ power then { i with den := i.den * Nat.pow 10 power.toNat }
  else
    let u := Nat.pow 10 (-power).toNat
    { i with low := i.low * u, mid := i.mid * u, high := i.high * u }

def Interval.holds (i : Interval) (n : Nat) : Bool :=
  let x := n * i.den
  if i.closed then i.low ≤ x && x ≤ i.high else i.low < x && x < i.high

/-- The natural number in the interval next to its middle, if there is one; of two equally near
ones the even one. -/
def Interval.nearest? (i : Interval) : Option Nat :=
  let n := i.mid / i.den
  match i.holds n, i.holds (n + 1) with
  | false, false => none
  | true, false => some n
  | false, true => some (n + 1)
  | true, true => some (Magnitude.roundDiv i.mid i.den)

/-- The greatest `k` with `10 ^ k ≤ num / den`, for a positive fraction: an estimate from the
binary length, which is at most one too small, and its correction. -/
def magnitudeOfTen (num den : Nat) : Int :=
  let bits : Int := (num.log2 : Int) - den.log2
  let guess : Int := (bits * 1233 - 1233) / 4096 - 1
  let fits (k : Int) : Bool :=
    if 0 ≤ k then den * Nat.pow 10 k.toNat ≤ num else den ≤ num * Nat.pow 10 (-k).toNat
  if fits (guess + 3) then guess + 3
  else if fits (guess + 2) then guess + 2
  else if fits (guess + 1) then guess + 1
  else guess

/-- Seventeen significant digits tell every double from its neighbours. -/
def enoughDigits : Nat := 17

/-- The decimal of a positive magnitude with the fewest digits, from the given numbers of
digits. -/
def search (i : Interval) (top : Int) : List Nat → Option Scaled
  | [] => none
  | count :: counts =>
    let power := top - count + 1
    match (i.scaled power).nearest? with
    | some n => some ⟨n, power⟩
    | none => search i top counts

/-- Moves the zeros at the end of the digits into the power of ten. -/
def dropZeros (fuel : Nat) (d : Scaled) : Scaled :=
  match fuel with
  | 0 => d
  | fuel + 1 =>
    if d.digits ≠ 0 ∧ d.digits % 10 = 0 then dropZeros fuel ⟨d.digits / 10, d.power + 1⟩ else d

def decimal (m : Magnitude) : Scaled :=
  if m.significand = 0 then ⟨0, 0⟩
  else
    let i := Interval.of m
    let found := search i (magnitudeOfTen i.mid i.den) (List.range' 1 enoughDigits)
    dropZeros enoughDigits (found.getD ⟨0, 0⟩)

example : (Magnitude.round 1 10).map decimal = some ⟨1, -1⟩ := by decide +kernel
example : decimal ⟨1, -1074⟩ = ⟨5, -324⟩ := by decide +kernel
example : decimal ⟨Nat.pow 2 53 - 1, 971⟩ = ⟨17976931348623157, 292⟩ := by decide +kernel
example : (Magnitude.ofNat (Nat.pow 10 23)).map decimal = some ⟨1, 23⟩ := by decide +kernel

end Shortest

end AgentSession
