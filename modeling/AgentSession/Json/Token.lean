import AgentSession.Number.Literal
/-!
# Tokens of JSON text

The first half of reading JSON: a text is cut into tokens by a machine that reads one character
at a time and keeps what it is in the middle of. Blanks are space, tab, carriage return and line
feed; words and number literals extend as far as their characters go, and are judged when they
end.

## Faults that wait

Two faults do not end the reading, since a reader that skips the value never meets them: a number
literal without a value, and a text whose escapes name half of a surrogate pair. Such a token
carries `none`, and whoever asks for its value is refused.
-/

namespace AgentSession

inductive Token where
  | openArray
  | closeArray
  | openObject
  | closeObject
  | comma
  | colon
  | null
  | bool (b : Bool)
  /-- A number literal, with its value if it has one. -/
  | number (n : Option Number)
  /-- A text, with its characters if its escapes name any. -/
  | text (s : Option String)
deriving DecidableEq, Repr

namespace Token

/-! ## Text -/

/-- A character of a text, or half of a surrogate pair. -/
inductive TextUnit where
  | char (c : Char)
  /-- A code unit from `D800` to `DFFF`. -/
  | half (code : Nat)
deriving DecidableEq, Repr

def TextUnit.ofCode (code : Nat) : TextUnit :=
  if 0xD800 ≤ code ∧ code ≤ 0xDFFF then .half code else .char (Char.ofNat code)

/-- The characters of a text, from its units newest first. Each half must stand in a pair, a high
one before a low one. -/
def joinUnits (units : List TextUnit) (after : List Char) : Option (List Char) :=
  match units with
  | [] => some after
  | .char c :: units => joinUnits units (c :: after)
  | .half low :: .half high :: units =>
    if 0xDC00 ≤ low ∧ high < 0xDC00 then
      joinUnits units (Char.ofNat (0x10000 + (high - 0xD800) * 0x400 + (low - 0xDC00)) :: after)
    else none
  | .half _ :: _ => none

def hexDigit? (c : Char) : Option Nat :=
  if '0' ≤ c ∧ c ≤ '9' then some (c.toNat - '0'.toNat)
  else if 'a' ≤ c ∧ c ≤ 'f' then some (c.toNat - 'a'.toNat + 10)
  else if 'A' ≤ c ∧ c ≤ 'F' then some (c.toNat - 'A'.toNat + 10)
  else none

def shortEscape? : Char → Option Char
  | '"' => some '"'
  | '\\' => some '\\'
  | '/' => some '/'
  | 'b' => some '\x08'
  | 'f' => some '\x0c'
  | 'n' => some '\n'
  | 'r' => some '\r'
  | 't' => some '\t'
  | _ => none

/-! ## The machine -/

/-- What the machine is in the middle of. -/
inductive Scan where
  | between
  /-- A word, with its letters newest first. -/
  | word (letters : List Char)
  | number (chars : List Char)
  | text (units : List TextUnit)
  | escape (units : List TextUnit)
  /-- The digits of an escape: how many are owed after the next, and the value so far. -/
  | digits (units : List TextUnit) (owed : Nat) (code : Nat)
deriving DecidableEq, Repr

/-- The machine between two characters. -/
structure Lexer where
  tokens : List Token := []
  scan : Scan := .between
deriving DecidableEq, Repr

def ofWord (letters : List Char) : Option Token :=
  if letters = ['n', 'u', 'l', 'l'] then some .null
  else if letters = ['t', 'r', 'u', 'e'] then some (.bool true)
  else if letters = ['f', 'a', 'l', 's', 'e'] then some (.bool false)
  else none

def ofLiteral (chars : List Char) : Option Token :=
  (Literal.parse chars).map fun l ↦ .number l.value

def isLetter (c : Char) : Bool := 'a' ≤ c && c ≤ 'z'

def startsLiteral (c : Char) : Bool := c == '-' || ('0' ≤ c && c ≤ '9')

def inLiteral (c : Char) : Bool :=
  startsLiteral c || c == '+' || c == '.' || c == 'e' || c == 'E'

def Lexer.enter (tokens : List Token) (c : Char) : Option Lexer :=
  match c with
  | ' ' | '\t' | '\n' | '\r' => some ⟨tokens, .between⟩
  | '[' => some ⟨.openArray :: tokens, .between⟩
  | ']' => some ⟨.closeArray :: tokens, .between⟩
  | '\x7b' => some ⟨.openObject :: tokens, .between⟩
  | '\x7d' => some ⟨.closeObject :: tokens, .between⟩
  | ',' => some ⟨.comma :: tokens, .between⟩
  | ':' => some ⟨.colon :: tokens, .between⟩
  | '"' => some ⟨tokens, .text []⟩
  | c =>
    if startsLiteral c then some ⟨tokens, .number [c]⟩
    else if isLetter c then some ⟨tokens, .word [c]⟩
    else none

def Lexer.step (l : Lexer) (c : Char) : Option Lexer :=
  match l.scan with
  | .between => Lexer.enter l.tokens c
  | .word letters =>
    if isLetter c then some { l with scan := .word (c :: letters) }
    else (ofWord letters.reverse).bind fun token ↦ Lexer.enter (token :: l.tokens) c
  | .number chars =>
    if inLiteral c then some { l with scan := .number (c :: chars) }
    else (ofLiteral chars.reverse).bind fun token ↦ Lexer.enter (token :: l.tokens) c
  | .text units =>
    if c = '"' then some ⟨.text ((joinUnits units []).map String.ofList) :: l.tokens, .between⟩
    else if c = '\\' then some { l with scan := .escape units }
    else if c < ' ' then none
    else some { l with scan := .text (.char c :: units) }
  | .escape units =>
    if c = 'u' then some { l with scan := .digits units 3 0 }
    else (shortEscape? c).map fun e ↦ { l with scan := .text (.char e :: units) }
  | .digits units owed code =>
    (hexDigit? c).map fun d ↦
      let code := code * 16 + d
      match owed with
      | 0 => { l with scan := .text (.ofCode code :: units) }
      | owed + 1 => { l with scan := .digits units owed code }

def Lexer.finish (l : Lexer) : Option (List Token) :=
  match l.scan with
  | .between => some l.tokens.reverse
  | .word letters => (ofWord letters.reverse).map fun token ↦ (token :: l.tokens).reverse
  | .number chars => (ofLiteral chars.reverse).map fun token ↦ (token :: l.tokens).reverse
  | .text _ | .escape _ | .digits _ _ _ => none

def scan (text : List Char) : Option (List Token) :=
  (text.foldlM Lexer.step {}).bind Lexer.finish

end Token

end AgentSession
