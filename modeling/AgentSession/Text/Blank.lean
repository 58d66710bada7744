/-!
# Blank characters

The characters with the Unicode property `White_Space`, and the removal of blank ends from a
text.
-/

namespace AgentSession.Text

/-- The code points with the property `White_Space`, as closed ranges in increasing order. -/
def blankRanges : List (Nat × Nat) :=
  [(0x09, 0x0D), (0x20, 0x20), (0x85, 0x85), (0xA0, 0xA0), (0x1680, 0x1680), (0x2000, 0x200A),
    (0x2028, 0x2029), (0x202F, 0x202F), (0x205F, 0x205F), (0x3000, 0x3000)]

def isBlank (c : Char) : Bool :=
  blankRanges.any fun r ↦ r.1 ≤ c.toNat && c.toNat ≤ r.2

def trim (text : List Char) : List Char :=
  ((text.dropWhile isBlank).reverse.dropWhile isBlank).reverse

def trimString (s : String) : String :=
  String.ofList (trim s.toList)

example : trim "\u00a0 a b\u3000\n".toList = ['a', ' ', 'b'] := by decide

end AgentSession.Text
