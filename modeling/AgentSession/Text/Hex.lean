import AgentSession.Text.Utf8
/-!
# Hexadecimal text

Bytes written as two hexadecimal digits each, in either case.
-/

namespace AgentSession.Hex

def digit? (c : Char) : Option Nat :=
  if '0' ≤ c ∧ c ≤ '9' then some (c.toNat - '0'.toNat)
  else if 'a' ≤ c ∧ c ≤ 'f' then some (c.toNat - 'a'.toNat + 10)
  else if 'A' ≤ c ∧ c ≤ 'F' then some (c.toNat - 'A'.toNat + 10)
  else none

def parse : List Char → Option Bytes
  | [] => some []
  | [_] => none
  | high :: low :: rest => do
    let a ← digit? high
    let b ← digit? low
    let bytes ← parse rest
    return UInt8.ofNat (a * 16 + b) :: bytes

example : parse ['e', '2', '9', 'C'] = some [0xE2, 0x9C] := by decide

end AgentSession.Hex
