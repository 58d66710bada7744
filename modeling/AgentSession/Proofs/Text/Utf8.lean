import AgentSession.Text.Utf8
import Mathlib.Tactic.SplitIfs
/-!
# Reading back what was encoded

A character is encoded in one to four bytes. The first byte tells how many more are owed and between
which bounds the next one lies, and these bounds are such that the bytes owed are just those of the
character (`Utf8.foldl_step_encodeChar`). So a text that was encoded is read back without a single
invalid part (`Utf8.lossy_encode`).

A byte below `0x80` stands for its character alone, so an encoded text has such a byte only where
the text has that character (`Utf8.mem_of_mem_encode`).
-/

namespace AgentSession.Utf8

variable {text : List Char} {b low high : UInt8} {o : Opening} {owed code : Nat}

/-- The bytes of a character, told from its code point. -/
theorem encodeChar_eq (c : Char) :
    String.utf8EncodeChar c =
      if c.toNat ≤ 127 then [UInt8.ofNat c.toNat]
      else if c.toNat ≤ 2047 then
        [UInt8.ofNat (c.toNat / 64 % 32 + 192), UInt8.ofNat (c.toNat % 64 + 128)]
      else if c.toNat ≤ 65535 then
        [UInt8.ofNat (c.toNat / 4096 % 16 + 224), UInt8.ofNat (c.toNat / 64 % 64 + 128),
          UInt8.ofNat (c.toNat % 64 + 128)]
      else
        [UInt8.ofNat (c.toNat / 262144 % 8 + 240), UInt8.ofNat (c.toNat / 4096 % 64 + 128),
          UInt8.ofNat (c.toNat / 64 % 64 + 128), UInt8.ofNat (c.toNat % 64 + 128)] := rfl

/-! ## First bytes -/

theorem lead_one : ∀ n < 128, lead (UInt8.ofNat n) = .single (Char.ofNat n) := by decide

theorem lead_two : ∀ n < 32, 2 ≤ n →
    lead (UInt8.ofNat (n + 192)) = .opens ⟨0, 0x80, 0xBF, n⟩ := by decide

/-- The bounds of the second byte keep out what fits in two bytes, and the surrogates. -/
theorem lead_three : ∀ n < 16, lead (UInt8.ofNat (n + 224)) =
    .opens ⟨1, if n = 0 then 0xA0 else 0x80, if n = 13 then 0x9F else 0xBF, n⟩ := by decide

/-- The bounds of the second byte keep out what fits in three bytes, and what is no code point. -/
theorem lead_four : ∀ n < 5, lead (UInt8.ofNat (n + 240)) =
    .opens ⟨2, if n = 0 then 0x90 else 0x80, if n = 4 then 0x8F else 0xBF, n⟩ := by decide

/-! ## Bytes -/

theorem step_lead (parts : List (Option Char)) (b : UInt8) :
    Decoder.step ⟨parts, none⟩ b = .enter parts b := rfl

theorem step_outside (parts : List (Option Char)) (h : ¬(o.low ≤ b ∧ b ≤ o.high)) :
    Decoder.step ⟨parts, some o⟩ b = .enter (none :: parts) b := if_neg h

theorem step_last (parts : List (Option Char)) (hlow : low ≤ b) (hhigh : b ≤ high) :
    Decoder.step ⟨parts, some ⟨0, low, high, code⟩⟩ b =
      ⟨some (Char.ofNat (code * 64 + (b.toNat - 0x80))) :: parts, none⟩ := if_pos ⟨hlow, hhigh⟩

theorem step_next (parts : List (Option Char)) (hlow : low ≤ b) (hhigh : b ≤ high) :
    Decoder.step ⟨parts, some ⟨owed + 1, low, high, code⟩⟩ b =
      ⟨parts, some ⟨owed, 0x80, 0xBF, code * 64 + (b.toNat - 0x80)⟩⟩ := if_pos ⟨hlow, hhigh⟩

/-- A byte within the bounds adds six bits to the code. -/
theorem step_owed (parts : List (Option Char)) {o : Opening} {n : Nat} (hn : n < 64)
    (hlow : o.low.toNat ≤ n + 128) (hhigh : n + 128 ≤ o.high.toNat) :
    Decoder.step ⟨parts, some o⟩ (UInt8.ofNat (n + 128)) =
      match o.owed with
      | 0 => ⟨some (Char.ofNat (o.code * 64 + n)) :: parts, none⟩
      | owed + 1 => ⟨parts, some ⟨owed, 0x80, 0xBF, o.code * 64 + n⟩⟩ := by
  have hbyte : (UInt8.ofNat (n + 128)).toNat = n + 128 := by
    rw [UInt8.toNat_ofNat', Nat.mod_eq_of_lt (by omega)]
  have habove : o.low ≤ UInt8.ofNat (n + 128) := by
    rw [UInt8.le_iff_toNat_le, hbyte]
    exact hlow
  have hbelow : UInt8.ofNat (n + 128) ≤ o.high := by
    rw [UInt8.le_iff_toNat_le, hbyte]
    exact hhigh
  have hcode : (UInt8.ofNat (n + 128)).toNat - 0x80 = n := by rw [hbyte, Nat.add_sub_cancel]
  obtain ⟨owed, low, high, code⟩ := o
  cases owed with
  | zero => rw [step_last parts habove hbelow, hcode]
  | succ owed => rw [step_next parts habove hbelow, hcode]

/-- The same for a byte that may be anything that goes on. -/
theorem step_tail (parts : List (Option Char)) (owed code : Nat) {n : Nat} (hn : n < 64) :
    Decoder.step ⟨parts, some ⟨owed, 0x80, 0xBF, code⟩⟩ (UInt8.ofNat (n + 128)) =
      match owed with
      | 0 => ⟨some (Char.ofNat (code * 64 + n)) :: parts, none⟩
      | owed + 1 => ⟨parts, some ⟨owed, 0x80, 0xBF, code * 64 + n⟩⟩ :=
  step_owed parts hn (Nat.le_add_left 128 n) (show n + 128 ≤ 191 by omega)

/-! ## Characters -/

/-- The bytes of a character make one part. -/
theorem foldl_step_encodeChar (parts : List (Option Char)) (c : Char) :
    (String.utf8EncodeChar c).foldl Decoder.step ⟨parts, none⟩ = ⟨some c :: parts, none⟩ := by
  have hvalid : c.toNat < 0xD800 ∨ 0xDFFF < c.toNat ∧ c.toNat < 0x110000 := c.valid
  have hc : Char.ofNat c.toNat = c := Char.ofNat_toNat c
  rw [encodeChar_eq]
  generalize c.toNat = v at hvalid hc ⊢
  -- with the first byte the code is the number above its last six, twelve or eighteen bits
  split_ifs with hone htwo hthree
  · rw [List.foldl_cons, List.foldl_nil, step_lead, Decoder.enter,
      lead_one v (Nat.lt_succ_of_le hone), hc]
  · have hlead := lead_two (v / 64 % 32) (by omega) (by omega)
    have hcode : v / 64 % 32 * 64 + v % 64 = v := by omega
    rw [List.foldl_cons, List.foldl_cons, List.foldl_nil, step_lead, Decoder.enter, hlead,
      step_tail parts 0 _ (by omega), hcode, hc]
  · have hlead := lead_three (v / 4096 % 16) (by omega)
    have hlow : UInt8.toNat (if v / 4096 % 16 = 0 then 0xA0 else 0x80) ≤ v / 64 % 64 + 128 := by
      split
      · exact (show 160 ≤ v / 64 % 64 + 128 by omega)
      · exact Nat.le_add_left 128 _
    have hhigh : v / 64 % 64 + 128 ≤ UInt8.toNat (if v / 4096 % 16 = 13 then 0x9F else 0xBF) := by
      split
      · exact (show v / 64 % 64 + 128 ≤ 159 by omega)
      · exact (show v / 64 % 64 + 128 ≤ 191 by omega)
    have hcode : (v / 4096 % 16 * 64 + v / 64 % 64) * 64 + v % 64 = v := by omega
    rw [List.foldl_cons, List.foldl_cons, List.foldl_cons, List.foldl_nil, step_lead,
      Decoder.enter, hlead]
    dsimp only
    rw [step_owed parts (by omega) hlow hhigh, step_tail parts 0 _ (by omega), hcode, hc]
  · have hlead := lead_four (v / 262144 % 8) (by omega)
    have hlow : UInt8.toNat (if v / 262144 % 8 = 0 then 0x90 else 0x80) ≤
        v / 4096 % 64 + 128 := by
      split
      · exact (show 144 ≤ v / 4096 % 64 + 128 by omega)
      · exact Nat.le_add_left 128 _
    have hhigh : v / 4096 % 64 + 128 ≤
        UInt8.toNat (if v / 262144 % 8 = 4 then 0x8F else 0xBF) := by
      split
      · exact (show v / 4096 % 64 + 128 ≤ 143 by omega)
      · exact (show v / 4096 % 64 + 128 ≤ 191 by omega)
    have hcode : ((v / 262144 % 8 * 64 + v / 4096 % 64) * 64 + v / 64 % 64) * 64 + v % 64 = v := by
      omega
    rw [List.foldl_cons, List.foldl_cons, List.foldl_cons, List.foldl_cons, List.foldl_nil,
      step_lead, Decoder.enter, hlead]
    dsimp only
    rw [step_owed parts (by omega) hlow hhigh, step_tail parts 1 _ (by omega),
      step_tail parts 0 _ (by omega), hcode, hc]

/-! ## Texts -/

theorem encode_append (text more : List Char) :
    encode (text ++ more) = encode text ++ encode more :=
  List.flatMap_append

theorem foldl_step_encode (done : List (Option Char)) (text : List Char) :
    (encode text).foldl Decoder.step ⟨done, none⟩ = ⟨(text.map some).reverse ++ done, none⟩ := by
  induction text generalizing done with
  | nil => rfl
  | cons c text ih =>
    rw [encode, List.flatMap_cons, List.foldl_append, foldl_step_encodeChar, ← encode, ih,
      List.map_cons, List.reverse_cons, List.append_assoc, List.singleton_append]

/-- An encoded text has no invalid part. -/
theorem parts_encode (text : List Char) : parts (encode text) = text.map some := by
  rw [parts, foldl_step_encode, Decoder.finish]
  dsimp only
  rw [List.append_nil, List.reverse_reverse]

/-- **Reading back.** A text that was encoded is read as it was. -/
@[simp] theorem lossy_encode (text : List Char) : lossy (encode text) = text := by
  rw [lossy, parts_encode, List.map_map]
  exact List.map_id text

/-- A byte below `0x80` in an encoded text is a character of the text. -/
theorem mem_of_mem_encode (hb : b < 0x80) (h : b ∈ encode text) : Char.ofNat b.toNat ∈ text := by
  obtain ⟨c, hc, hmem⟩ := List.mem_flatMap.1 h
  suffices heq : b.toNat = c.toNat by
    rw [heq, Char.ofNat_toNat]
    exact hc
  have hsmall : b.toNat < 128 := hb
  rw [encodeChar_eq] at hmem
  -- all bytes of a character with more than one are at least `0x80`
  have habove {n low : Nat} (hlow : 128 ≤ n + low) (hn : n + low < 256) :
      b ≠ UInt8.ofNat (n + low) := by
    rintro rfl
    rw [UInt8.toNat_ofNat', Nat.mod_eq_of_lt hn] at hsmall
    omega
  split_ifs at hmem with hone htwo hthree
  · rw [List.mem_singleton.1 hmem, UInt8.toNat_ofNat', Nat.mod_eq_of_lt (by omega)]
  · simp only [List.mem_cons, List.not_mem_nil, or_false] at hmem
    rcases hmem with h | h <;> exact absurd h (habove (by omega) (by omega))
  · simp only [List.mem_cons, List.not_mem_nil, or_false] at hmem
    rcases hmem with h | h | h <;> exact absurd h (habove (by omega) (by omega))
  · simp only [List.mem_cons, List.not_mem_nil, or_false] at hmem
    rcases hmem with h | h | h | h <;> exact absurd h (habove (by omega) (by omega))

end AgentSession.Utf8
