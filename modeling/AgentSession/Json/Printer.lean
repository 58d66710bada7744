import AgentSession.Json.Basic
import AgentSession.Number.Shortest
/-!
# Printing JSON

The compact text of a document has no blanks. Its members stand in the order of the dictionary,
which is the order of the UTF-8 bytes of their keys. The indented text puts each item and each
member on a line of its own.
-/

namespace AgentSession

/-! ## Numbers -/

/-- How a double is written. -/
structure DoubleLayout where
  leastPlain : Int
  greatestPlain : Int
deriving DecidableEq, Repr

/-- Doubles from `1e-5` up to, not including, `1e16` are written with a point and at least one
digit after it; the others are written with an exponent, which always carries a sign. -/
def Json.doubleLayout : DoubleLayout := ⟨-5, 15⟩

namespace DoubleLayout

def zeros (n : Nat) : List Char := List.replicate n '0'

/-- The digits with a point, where the first digit stands for `10 ^ top`. -/
def plain (digits : List Char) (top : Int) : List Char :=
  if top < 0 then '0' :: '.' :: zeros ((-top).toNat - 1) ++ digits
  else
    let before := top.toNat + 1
    if digits.length ≤ before then digits ++ zeros (before - digits.length) ++ ['.', '0']
    else digits.take before ++ '.' :: digits.drop before

/-- The digits with an exponent, where the first digit stands for `10 ^ top`. -/
def scientific (digits : List Char) (top : Int) : List Char :=
  let mantissa := match digits with
    | [] => []
    | [d] => [d]
    | d :: more => d :: '.' :: more
  let sign := if top < 0 then '-' else '+'
  mantissa ++ 'e' :: sign :: Nat.toDigits 10 top.natAbs

def render (layout : DoubleLayout) (d : Binary64) : List Char :=
  let sign := if d.negative then ['-'] else []
  let shortest := Shortest.decimal d.magnitude
  let digits := Nat.toDigits 10 shortest.digits
  let top := shortest.power + digits.length - 1
  sign ++
    if layout.leastPlain ≤ top ∧ top ≤ layout.greatestPlain then plain digits top
    else scientific digits top

end DoubleLayout

def Json.renderInt (i : Int) : List Char :=
  if i < 0 then '-' :: Nat.toDigits 10 i.natAbs else Nat.toDigits 10 i.natAbs

def Json.renderNumber : Number → List Char
  | .int i => renderInt i
  | .double d => doubleLayout.render d

/-! ## Text -/

namespace Json

/-- How a character stands in a JSON text: quotes, backslashes and the controls below U+0020 are
escaped, and nothing else. -/
def escapeChar (c : Char) : List Char :=
  match c with
  | '"' => ['\\', '"']
  | '\\' => ['\\', '\\']
  | '\x08' => ['\\', 'b']
  | '\t' => ['\\', 't']
  | '\n' => ['\\', 'n']
  | '\x0c' => ['\\', 'f']
  | '\r' => ['\\', 'r']
  | c =>
    if c < ' ' then
      ['\\', 'u', '0', '0', Nat.digitChar (c.toNat / 16), Nat.digitChar (c.toNat % 16)]
    else [c]

def renderText (s : String) : List Char :=
  '"' :: s.toList.flatMap escapeChar ++ ['"']

/-! ## The compact text -/

mutual

/-- The compact text of a document. -/
def render : Json → List Char
  | .null => ['n', 'u', 'l', 'l']
  | .bool true => ['t', 'r', 'u', 'e']
  | .bool false => ['f', 'a', 'l', 's', 'e']
  | .num n => renderNumber n
  | .str s => renderText s
  | .arr items => '[' :: renderItems items ++ [']']
  | .obj members => '\x7b' :: renderMembers members ++ ['\x7d']

def renderItems : List Json → List Char
  | [] => []
  | [item] => render item
  | item :: items => render item ++ ',' :: renderItems items

def renderMembers : List (String × Json) → List Char
  | [] => []
  | [(key, value)] => renderText key ++ ':' :: render value
  | (key, value) :: members => renderText key ++ ':' :: render value ++ ',' :: renderMembers members

end

def compact (j : Json) : String := String.ofList j.render

/-! ## The indented text -/

/-- A new line with two blanks for each level. -/
def newLine (level : Nat) : List Char := '\n' :: List.replicate (2 * level) ' '

mutual

def renderIndented (level : Nat) : Json → List Char
  | .arr [] => ['[', ']']
  | .obj [] => ['\x7b', '\x7d']
  | .arr (item :: items) =>
    '[' :: indentedItems (level + 1) (item :: items) ++ newLine level ++ [']']
  | .obj (member :: members) =>
    '\x7b' :: indentedMembers (level + 1) (member :: members) ++ newLine level ++ ['\x7d']
  | j => render j

def indentedItems (level : Nat) : List Json → List Char
  | [] => []
  | [item] => newLine level ++ renderIndented level item
  | item :: items => newLine level ++ renderIndented level item ++ ',' :: indentedItems level items

def indentedMembers (level : Nat) : List (String × Json) → List Char
  | [] => []
  | [(key, value)] => newLine level ++ renderText key ++ ':' :: ' ' :: renderIndented level value
  | (key, value) :: members =>
    newLine level ++ renderText key ++ ':' :: ' ' :: renderIndented level value ++
      ',' :: indentedMembers level members

end

def indented (j : Json) : String := String.ofList (renderIndented 0 j)

end Json

end AgentSession
