/-!
# Decimal numerals

Two ways to read a natural number from text. `Decimal.parse` is lenient about the spelling: it
takes a leading plus sign and leading zeros, and names its reasons to refuse. `Decimal.canonical`
takes exactly the spelling that printing a number produces.
-/

namespace AgentSession.Decimal

def maxWord : Nat := Nat.pow 2 64 - 1

def digit? (c : Char) : Option Nat :=
  if '0' ≤ c ∧ c ≤ '9' then some (c.toNat - '0'.toNat) else none

/-- The value of a list of digits, most significant first. -/
def ofDigits (digits : List Nat) : Nat :=
  digits.foldl (fun n d ↦ n * 10 + d) 0

inductive ParseError where
  | empty
  | invalidDigit
  | tooLarge
deriving DecidableEq, Repr

def ParseError.message : ParseError → String
  | .empty => "cannot parse integer from empty string"
  | .invalidDigit => "invalid digit found in string"
  | .tooLarge => "number too large to fit in target type"

/-- Reads digits up to the first fault: a character that is no digit, or a digit that makes the
number leave 64 bits. -/
def parseDigits (text : List Char) : Except ParseError Nat :=
  text.foldlM (fun n c ↦
    match digit? c with
    | none => .error .invalidDigit
    | some d => if n * 10 + d ≤ maxWord then .ok (n * 10 + d) else .error .tooLarge) 0

/-- Reads a number of at most 64 bits: an optional plus sign and at least one digit. -/
def parse : List Char → Except ParseError Nat
  | [] => .error .empty
  | ['+'] => .error .invalidDigit
  | '+' :: digits => parseDigits digits
  | digits => parseDigits digits

/-- Whether a text is the numeral of some number: digits, with no zero in front of others. -/
def isCanonical : List Char → Bool
  | [] => false
  | ['0'] => true
  | c :: rest => c != '0' && (c :: rest).all fun d ↦ (digit? d).isSome

def canonical (text : List Char) : Option Nat :=
  if isCanonical text then some (ofDigits (text.filterMap digit?)) else none

example : parse "+007".toList = .ok 7 := by rfl
example : parse "18446744073709551616".toList = .error .tooLarge := by rfl
example : canonical "10".toList = some 10 := by rfl
example : canonical "01".toList = none := by rfl

end AgentSession.Decimal
