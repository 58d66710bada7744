/-!
# UTF-8 with replacement

Bytes arrive in arbitrary pieces and may hold no valid text at all. This module reads them one
byte at a time. Between characters the machine holds nothing; inside one it holds an `Opening`:
the bits read so far, how many continuation bytes are owed, and which bytes may come next. The
range of the next byte carries the whole of the UTF-8 syntax that is not a plain length: the
second byte after `E0`, `ED`, `F0` and `F4` has a narrower range than the others.

## Maximal invalid parts

A byte outside the range ends the character that was being read, which then counts as one
invalid part, and is read again as if it stood between characters. So an invalid part is as long
as it can be, and it is shown as one replacement character U+FFFD by `Utf8.lossy`, while
`Utf8.strict` refuses a text that has any.
-/

namespace AgentSession

abbrev Bytes := List UInt8

namespace Utf8

/-- A character of which the first bytes have been read. -/
structure Opening where
  /-- How many continuation bytes follow the next one. -/
  owed : Nat
  low : UInt8
  high : UInt8
  code : Nat
deriving DecidableEq, Repr

/-- What a byte means between characters. -/
inductive Lead where
  | single (c : Char)
  | opens (o : Opening)
  | invalid
deriving DecidableEq, Repr

def lead (b : UInt8) : Lead :=
  if b < 0x80 then .single (Char.ofNat b.toNat)
  else if b < 0xC2 then .invalid
  else if b < 0xE0 then .opens ⟨0, 0x80, 0xBF, b.toNat - 0xC0⟩
  else if b = 0xE0 then .opens ⟨1, 0xA0, 0xBF, 0⟩
  else if b = 0xED then .opens ⟨1, 0x80, 0x9F, 0xD⟩
  else if b < 0xF0 then .opens ⟨1, 0x80, 0xBF, b.toNat - 0xE0⟩
  else if b = 0xF0 then .opens ⟨2, 0x90, 0xBF, 0⟩
  else if b < 0xF4 then .opens ⟨2, 0x80, 0xBF, b.toNat - 0xF0⟩
  else if b = 0xF4 then .opens ⟨2, 0x80, 0x8F, 4⟩
  else .invalid

/-- The machine between two bytes. A finished part is a character, or `none` for an invalid
part. -/
structure Decoder where
  parts : List (Option Char) := []
  opening : Option Opening := none
deriving DecidableEq, Repr

/-- Reads a byte that stands between characters, after the finished parts `parts`. -/
def Decoder.enter (parts : List (Option Char)) (b : UInt8) : Decoder :=
  match lead b with
  | .single c => ⟨some c :: parts, none⟩
  | .opens o => ⟨parts, some o⟩
  | .invalid => ⟨none :: parts, none⟩

def Decoder.step (d : Decoder) (b : UInt8) : Decoder :=
  match d.opening with
  | none => .enter d.parts b
  | some o =>
    if o.low ≤ b ∧ b ≤ o.high then
      let code := o.code * 64 + (b.toNat - 0x80)
      match o.owed with
      | 0 => ⟨some (Char.ofNat code) :: d.parts, none⟩
      | n + 1 => ⟨d.parts, some ⟨n, 0x80, 0xBF, code⟩⟩
    else .enter (none :: d.parts) b

def Decoder.finish (d : Decoder) : List (Option Char) :=
  match d.opening with
  | none => d.parts.reverse
  | some _ => (none :: d.parts).reverse

/-- The parts of a byte sequence: its characters, and `none` for each maximal invalid part. -/
def parts (bytes : Bytes) : List (Option Char) :=
  (bytes.foldl Decoder.step {}).finish

def replacement : Char := '\ufffd'

/-- The text of a byte sequence, with one replacement character for each invalid part. -/
def lossy (bytes : Bytes) : List Char :=
  (parts bytes).map fun part ↦ part.getD replacement

/-- The text of a byte sequence, or `none` if it has an invalid part. -/
def strict (bytes : Bytes) : Option (List Char) :=
  (parts bytes).mapM id

def encode (text : List Char) : Bytes :=
  text.flatMap String.utf8EncodeChar

example : lossy [0x61, 0xE4, 0xB8, 0x62, 0xFF] = ['a', replacement, 'b', replacement] := by
  decide

example : strict (encode ['a', 'é', '中', '😀']) = some ['a', 'é', '中', '😀'] := by decide

end Utf8

end AgentSession
