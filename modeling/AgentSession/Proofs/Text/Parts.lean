import AgentSession.Proofs.Text.Utf8
/-!
# The parts of a byte sequence

A byte sequence has one cut into encoded characters and invalid parts, where each invalid part is as
long as it can be: it is a single byte, or bytes with which a character begins, and the byte after
it would begin none (`Utf8.Invalid`). The machine of `Utf8.parts` finds this cut
(`Utf8.cuts_iff`), although it reads every byte once and never looks back.

## The open character

Between two bytes of a character the machine is in an `Opening`. Three things tie it to the bytes
that were read (`Opening.Holds`): the machine comes to it from these bytes, its bounds lie above
`0x80`, and whatever bytes follow within the bounds, they complete a character. The first says that
these bytes hold no whole character, the third that they begin one.

## Restart

A byte below `0x80` is never within the bounds. So it ends whatever is open and stands for its own
character, and what comes before it and what comes after it are read as if the other were not there
(`Utf8.parts_append_cons`).
-/

namespace AgentSession.Utf8

variable {bytes part rest read : Bytes} {b low high : UInt8} {c : Char} {o : Opening}
  {owed code : Nat}

/-! ## First bytes -/

theorem lead_invalid_low : ∀ n < 66, lead (UInt8.ofNat (n + 128)) = .invalid := by decide

theorem lead_invalid_high : ∀ n < 11, lead (UInt8.ofNat (n + 245)) = .invalid := by decide

/-- What a byte means between characters, told from its range. -/
theorem lead_cases (b : UInt8) :
    (∃ n < 128, b = UInt8.ofNat n ∧ lead b = .single (Char.ofNat n)) ∨
      (∃ n, 2 ≤ n ∧ n < 32 ∧ b = UInt8.ofNat (n + 192) ∧ lead b = .opens ⟨0, 0x80, 0xBF, n⟩) ∨
      (∃ n < 16, b = UInt8.ofNat (n + 224) ∧ lead b =
        .opens ⟨1, if n = 0 then 0xA0 else 0x80, if n = 13 then 0x9F else 0xBF, n⟩) ∨
      (∃ n < 5, b = UInt8.ofNat (n + 240) ∧ lead b =
        .opens ⟨2, if n = 0 then 0x90 else 0x80, if n = 4 then 0x8F else 0xBF, n⟩) ∨
      lead b = .invalid := by
  obtain ⟨v, hv, rfl⟩ : ∃ v < 256, b = UInt8.ofNat v :=
    ⟨b.toNat, b.toNat_lt, UInt8.ofNat_toNat.symm⟩
  by_cases hone : v < 128
  · exact .inl ⟨v, hone, rfl, lead_one v hone⟩
  by_cases htail : v < 194
  · obtain ⟨n, rfl⟩ := Nat.exists_eq_add_of_le' (show 128 ≤ v by omega)
    exact .inr (.inr (.inr (.inr (lead_invalid_low n (by omega)))))
  by_cases htwo : v < 224
  · obtain ⟨n, rfl⟩ := Nat.exists_eq_add_of_le' (show 192 ≤ v by omega)
    exact .inr (.inl ⟨n, by omega, by omega, rfl, lead_two n (by omega) (by omega)⟩)
  by_cases hthree : v < 240
  · obtain ⟨n, rfl⟩ := Nat.exists_eq_add_of_le' (show 224 ≤ v by omega)
    exact .inr (.inr (.inl ⟨n, by omega, rfl, lead_three n (by omega)⟩))
  by_cases hfour : v < 245
  · obtain ⟨n, rfl⟩ := Nat.exists_eq_add_of_le' (show 240 ≤ v by omega)
    exact .inr (.inr (.inr (.inl ⟨n, by omega, rfl, lead_four n (by omega)⟩)))
  · obtain ⟨n, rfl⟩ := Nat.exists_eq_add_of_le' (show 245 ≤ v by omega)
    exact .inr (.inr (.inr (.inr (lead_invalid_high n (by omega)))))

/-! ## Characters from their bytes -/

theorem toNat_ofNat {n : Nat} (h : n.isValidChar) : (Char.ofNat n).toNat = n := by
  rw [Char.ofNat, dif_pos h]
  rfl

theorem encodeChar_ofNat_one {n : Nat} (h : n < 128) :
    String.utf8EncodeChar (Char.ofNat n) = [UInt8.ofNat n] := by
  have hn : (Char.ofNat n).toNat = n := toNat_ofNat (.inl (by omega))
  rw [encodeChar_eq, hn, if_pos (by omega)]

theorem encodeChar_ofNat_two {x y : Nat} (hx : 2 ≤ x) (hx' : x < 32) (hy : y < 64) :
    String.utf8EncodeChar (Char.ofNat (x * 64 + y)) =
      [UInt8.ofNat (x + 192), UInt8.ofNat (y + 128)] := by
  have hn : (Char.ofNat (x * 64 + y)).toNat = x * 64 + y := toNat_ofNat (.inl (by omega))
  have hfirst : (x * 64 + y) / 64 % 32 = x := by omega
  have hsecond : (x * 64 + y) % 64 = y := by omega
  rw [encodeChar_eq, hn, if_neg (by omega), if_pos (by omega), hfirst, hsecond]

theorem encodeChar_ofNat_three {x y z : Nat} (hx : x < 16) (hy : y < 64) (hz : z < 64)
    (hlow : x = 0 → 32 ≤ y) (hhigh : x = 13 → y < 32) :
    String.utf8EncodeChar (Char.ofNat ((x * 64 + y) * 64 + z)) =
      [UInt8.ofNat (x + 224), UInt8.ofNat (y + 128), UInt8.ofNat (z + 128)] := by
  have hvalid : ((x * 64 + y) * 64 + z).isValidChar := by
    rw [Nat.isValidChar]
    omega
  have hfirst : ((x * 64 + y) * 64 + z) / 4096 % 16 = x := by omega
  have hsecond : ((x * 64 + y) * 64 + z) / 64 % 64 = y := by omega
  have hthird : ((x * 64 + y) * 64 + z) % 64 = z := by omega
  rw [encodeChar_eq, toNat_ofNat hvalid, if_neg (by omega), if_neg (by omega),
    if_pos (by omega), hfirst, hsecond, hthird]

theorem encodeChar_ofNat_four {x y z w : Nat} (hx : x < 5) (hy : y < 64) (hz : z < 64)
    (hw : w < 64) (hlow : x = 0 → 16 ≤ y) (hhigh : x = 4 → y < 16) :
    String.utf8EncodeChar (Char.ofNat (((x * 64 + y) * 64 + z) * 64 + w)) =
      [UInt8.ofNat (x + 240), UInt8.ofNat (y + 128), UInt8.ofNat (z + 128),
        UInt8.ofNat (w + 128)] := by
  have hvalid : (((x * 64 + y) * 64 + z) * 64 + w).isValidChar := by
    rw [Nat.isValidChar]
    omega
  have hfirst : (((x * 64 + y) * 64 + z) * 64 + w) / 262144 % 8 = x := by omega
  have hsecond : (((x * 64 + y) * 64 + z) * 64 + w) / 4096 % 64 = y := by omega
  have hthird : (((x * 64 + y) * 64 + z) * 64 + w) / 64 % 64 = z := by omega
  have hfourth : (((x * 64 + y) * 64 + z) * 64 + w) % 64 = w := by omega
  rw [encodeChar_eq, toNat_ofNat hvalid, if_neg (by omega), if_neg (by omega),
    if_neg (by omega), hfirst, hsecond, hthird, hfourth]

/-! ## The open character -/

/-- Whatever bytes follow within the bounds, they complete a character of which `read` has been
read. -/
def Completes : (owed : Nat) → (low high : UInt8) → (code : Nat) → (read : Bytes) → Prop
  | 0, low, high, code, read => ∀ b, low ≤ b → b ≤ high →
    read ++ [b] = String.utf8EncodeChar (Char.ofNat (code * 64 + (b.toNat - 0x80)))
  | owed + 1, low, high, code, read => ∀ b, low ≤ b → b ≤ high →
    Completes owed 0x80 0xBF (code * 64 + (b.toNat - 0x80)) (read ++ [b])

/-- What ties an open character to the bytes of it that were read. -/
structure Opening.Holds (o : Opening) (read : Bytes) : Prop where
  reached : read.foldl Decoder.step {} = ⟨[], some o⟩
  low : 0x80 ≤ o.low
  bounds : o.low ≤ o.high
  completes : Completes o.owed o.low o.high o.code read

/-- A byte from `0x80` on that is within bounds holds six bits. -/
theorem exists_bits (hlow : 0x80 ≤ low) (hhigh : high ≤ 0xBF) (hb : low ≤ b) (hb' : b ≤ high) :
    ∃ n < 64, b = UInt8.ofNat (n + 128) ∧ b.toNat - 0x80 = n ∧ low.toNat ≤ n + 128 ∧
      n + 128 ≤ high.toNat := by
  rw [UInt8.le_iff_toNat_le] at hlow hhigh hb hb'
  change 128 ≤ low.toNat at hlow
  change high.toNat ≤ 191 at hhigh
  refine ⟨b.toNat - 128, by omega, ?_, rfl, by omega, by omega⟩
  rw [Nat.sub_add_cancel (by omega), UInt8.ofNat_toNat]

/-- The same for a byte that may be anything that goes on. -/
theorem exists_tail (hb : 0x80 ≤ b) (hb' : b ≤ 0xBF) :
    ∃ n < 64, b = UInt8.ofNat (n + 128) ∧ b.toNat - 0x80 = n := by
  obtain ⟨n, hn, rfl, hbits, -⟩ := exists_bits (UInt8.le_refl _) (UInt8.le_refl _) hb hb'
  exact ⟨n, hn, rfl, hbits⟩

/-- Only bytes below `0x80` are characters by themselves. -/
theorem eq_encodeChar_of_lead (h : lead b = .single c) : [b] = String.utf8EncodeChar c := by
  rcases lead_cases b with ⟨n, hn, rfl, hlead⟩ | ⟨_, _, _, -, hlead⟩ | ⟨_, _, -, hlead⟩ |
    ⟨_, _, -, hlead⟩ | hlead <;> rw [hlead] at h <;> cases h
  exact (encodeChar_ofNat_one hn).symm

theorem bounds_three : ∀ n < 16, (0x80 : UInt8) ≤ (if n = 0 then 0xA0 else 0x80) ∧
    (if n = 0 then 0xA0 else 0x80 : UInt8) ≤ (if n = 13 then 0x9F else 0xBF) ∧
    (if n = 13 then 0x9F else 0xBF : UInt8) ≤ 0xBF := by decide

theorem bounds_four : ∀ n < 5, (0x80 : UInt8) ≤ (if n = 0 then 0x90 else 0x80) ∧
    (if n = 0 then 0x90 else 0x80 : UInt8) ≤ (if n = 4 then 0x8F else 0xBF) ∧
    (if n = 4 then 0x8F else 0xBF : UInt8) ≤ 0xBF := by decide

theorem completes_two {n : Nat} (hn : 2 ≤ n) (hn' : n < 32) :
    Completes 0 0x80 0xBF n [UInt8.ofNat (n + 192)] := by
  intro b hlow hhigh
  obtain ⟨y, hy, rfl, hbits⟩ := exists_tail hlow hhigh
  rw [hbits, encodeChar_ofNat_two hn hn' hy]
  rfl

theorem completes_three {n : Nat} (hn : n < 16) :
    Completes 1 (if n = 0 then 0xA0 else 0x80) (if n = 13 then 0x9F else 0xBF) n
      [UInt8.ofNat (n + 224)] := by
  intro b hlow hhigh b' hlow' hhigh'
  obtain ⟨habove, -, hbelow⟩ := bounds_three n hn
  obtain ⟨y, hy, rfl, hbits, hfrom, hto⟩ := exists_bits habove hbelow hlow hhigh
  obtain ⟨z, hz, rfl, hbits'⟩ := exists_tail hlow' hhigh'
  rw [hbits, hbits', encodeChar_ofNat_three hn hy hz ?_ ?_]
  · rfl
  · intro hn
    rw [if_pos hn] at hfrom
    exact Nat.le_of_add_le_add_right (show 32 + 128 ≤ y + 128 from hfrom)
  · intro hn
    rw [if_pos hn] at hto
    exact Nat.lt_of_add_lt_add_right (show y + 128 < 32 + 128 from Nat.lt_succ_of_le hto)

theorem completes_four {n : Nat} (hn : n < 5) :
    Completes 2 (if n = 0 then 0x90 else 0x80) (if n = 4 then 0x8F else 0xBF) n
      [UInt8.ofNat (n + 240)] := by
  intro b hlow hhigh b' hlow' hhigh' b'' hlow'' hhigh''
  obtain ⟨habove, -, hbelow⟩ := bounds_four n hn
  obtain ⟨y, hy, rfl, hbits, hfrom, hto⟩ := exists_bits habove hbelow hlow hhigh
  obtain ⟨z, hz, rfl, hbits'⟩ := exists_tail hlow' hhigh'
  obtain ⟨w, hw, rfl, hbits''⟩ := exists_tail hlow'' hhigh''
  rw [hbits, hbits', hbits'', encodeChar_ofNat_four hn hy hz hw ?_ ?_]
  · rfl
  · intro hn
    rw [if_pos hn] at hfrom
    exact Nat.le_of_add_le_add_right (show 16 + 128 ≤ y + 128 from hfrom)
  · intro hn
    rw [if_pos hn] at hto
    exact Nat.lt_of_add_lt_add_right (show y + 128 < 16 + 128 from Nat.lt_succ_of_le hto)

/-- The first byte of a character opens it. -/
theorem holds_of_lead (h : lead b = .opens o) : o.Holds [b] := by
  have hreached : [b].foldl Decoder.step {} = ⟨[], some o⟩ := by
    rw [List.foldl_cons, List.foldl_nil, step_lead, Decoder.enter, h]
  rcases lead_cases b with ⟨_, _, -, hlead⟩ | ⟨n, hn, hn', rfl, hlead⟩ | ⟨n, hn, rfl, hlead⟩ |
    ⟨n, hn, rfl, hlead⟩ | hlead <;> rw [hlead] at h <;> cases h
  · exact ⟨hreached, UInt8.le_refl _, show (0x80 : UInt8) ≤ 0xBF by decide, completes_two hn hn'⟩
  · exact ⟨hreached, (bounds_three n hn).1, (bounds_three n hn).2.1, completes_three hn⟩
  · exact ⟨hreached, (bounds_four n hn).1, (bounds_four n hn).2.1, completes_four hn⟩

/-! ## Finished parts

Reading puts parts in front of those that are finished and never looks at them. -/

/-- A machine with more finished parts before its own. -/
def Decoder.behind (d : Decoder) (done : List (Option Char)) : Decoder :=
  { d with parts := d.parts ++ done }

theorem enter_append (parts done : List (Option Char)) (b : UInt8) :
    Decoder.enter (parts ++ done) b = (Decoder.enter parts b).behind done := by
  unfold Decoder.enter
  split <;> rfl

theorem step_behind (d : Decoder) (done : List (Option Char)) (b : UInt8) :
    (d.behind done).step b = (d.step b).behind done := by
  obtain ⟨parts, opening⟩ := d
  cases opening with
  | none => exact enter_append parts done b
  | some o =>
    simp only [Decoder.step, Decoder.behind]
    split
    · split <;> rfl
    · exact enter_append (none :: parts) done b

theorem foldl_step_behind (d : Decoder) (done : List (Option Char)) (bytes : Bytes) :
    bytes.foldl Decoder.step (d.behind done) = (bytes.foldl Decoder.step d).behind done := by
  induction bytes generalizing d with
  | nil => rfl
  | cons b bytes ih => rw [List.foldl_cons, List.foldl_cons, step_behind, ih]

theorem finish_behind (d : Decoder) (done : List (Option Char)) :
    (d.behind done).finish = done.reverse ++ d.finish := by
  obtain ⟨parts, opening⟩ := d
  cases opening <;> simp [Decoder.behind, Decoder.finish]

/-- A machine between characters goes on as if nothing had come before. -/
theorem finish_foldl_step (done : List (Option Char)) (bytes : Bytes) :
    (bytes.foldl Decoder.step ⟨done, none⟩).finish = done.reverse ++ parts bytes := by
  rw [parts, ← finish_behind, ← foldl_step_behind]
  rfl

/-- The part that was finished first stays the first. -/
theorem getLast?_parts_foldl {d : Decoder} {first : Option Char}
    (h : d.parts.getLast? = some first) (bytes : Bytes) :
    (bytes.foldl Decoder.step d).parts.getLast? = some first := by
  obtain ⟨later, hparts⟩ := List.getLast?_eq_some_iff.1 h
  have hd : d = Decoder.behind ⟨later, d.opening⟩ [first] := by rw [Decoder.behind, ← hparts]
  rw [hd, foldl_step_behind, Decoder.behind, List.getLast?_concat]

/-! ## Cuts -/

/-- Bytes with which a character begins. -/
def Begins (read : Bytes) : Prop := ∃ c, read <+: String.utf8EncodeChar c

/-- An invalid part of `part ++ rest` that stands at the front and is as long as it can be: a single
byte, or bytes with which a character begins. -/
structure Invalid (part rest : Bytes) : Prop where
  /-- The front is no character. -/
  no_char : ∀ c, ¬String.utf8EncodeChar c <+: part ++ rest
  shape : part.length = 1 ∨ part ≠ [] ∧ Begins part
  longest : ∀ read, read <+: part ++ rest → Begins read → read.length ≤ part.length

/-- A cut of a byte sequence into characters and invalid parts. -/
inductive Cuts : Bytes → List (Option Char) → Prop where
  | nil : Cuts [] []
  | char (c : Char) {rest : Bytes} {parts : List (Option Char)} (h : Cuts rest parts) :
    Cuts (String.utf8EncodeChar c ++ rest) (some c :: parts)
  | invalid {part rest : Bytes} {parts : List (Option Char)} (hpart : Invalid part rest)
    (h : Cuts rest parts) : Cuts (part ++ rest) (none :: parts)

theorem encodeChar_ne_nil (c : Char) : String.utf8EncodeChar c ≠ [] := by
  intro h
  have hfold := foldl_step_encodeChar [] c
  rw [h, List.foldl_nil] at hfold
  cases hfold

theorem Begins.of_longer {more : Bytes} (h : Begins more) (hread : read <+: more) : Begins read :=
  h.imp fun _ hc ↦ hread.trans hc

/-- It is enough to look at the byte after an invalid part. -/
theorem Invalid.of_head (shape : part.length = 1 ∨ part ≠ [] ∧ Begins part)
    (hpart : ∀ c, ¬String.utf8EncodeChar c <+: part)
    (hnext : ∀ b, rest.head? = some b → ¬Begins (part ++ [b])) : Invalid part rest := by
  have longest (read : Bytes) (hread : read <+: part ++ rest) (hbegins : Begins read) :
      read.length ≤ part.length := by
    refine Nat.le_of_not_lt fun hlt ↦ ?_
    obtain ⟨more, rfl⟩ := List.prefix_of_prefix_length_le (List.prefix_append part rest) hread
      (Nat.le_of_lt hlt)
    obtain ⟨b, more, rfl⟩ : ∃ b more', more = b :: more' :=
      List.exists_cons_of_ne_nil fun hnil ↦ by simp [hnil] at hlt
    obtain ⟨tail, rfl⟩ := (List.prefix_append_right_inj part).1 hread
    refine hnext b rfl (hbegins.of_longer ?_)
    exact (List.prefix_append_right_inj part).2 (List.prefix_append [b] more)
  refine ⟨fun c hc ↦ hpart c ?_, shape, longest⟩
  exact List.prefix_of_prefix_length_le hc (List.prefix_append part rest)
    (longest _ hc ⟨c, List.prefix_rfl⟩)

theorem Completes.begins (h : Completes owed low high code read) (hbounds : low ≤ high) :
    Begins read := by
  induction owed generalizing low high code read with
  | zero => exact ⟨_, ⟨[low], h low (UInt8.le_refl low) hbounds⟩⟩
  | succ owed ih =>
    have hread := ih (h low (UInt8.le_refl low) hbounds) (by decide)
    exact hread.of_longer (List.prefix_append read [low])

/-! ## What the machine says about the bytes it has read -/

theorem getLast?_parts_of_front (h : String.utf8EncodeChar c <+: read) :
    (read.foldl Decoder.step {}).parts.getLast? = some (some c) := by
  obtain ⟨rest, rfl⟩ := h
  rw [List.foldl_append, foldl_step_encodeChar []]
  exact getLast?_parts_foldl rfl rest

/-- Bytes with an invalid part begin no character. -/
theorem not_begins_of_getLast? (h : (read.foldl Decoder.step {}).parts.getLast? = some none) :
    ¬Begins read := by
  rintro ⟨c, rest, hrest⟩
  have hlast := getLast?_parts_foldl h rest
  rw [← List.foldl_append, hrest, foldl_step_encodeChar []] at hlast
  cases hlast

theorem Opening.Holds.no_char (h : o.Holds read) (c : Char) :
    ¬String.utf8EncodeChar c <+: read := by
  intro hc
  have hlast := getLast?_parts_of_front hc
  rw [h.reached] at hlast
  cases hlast

theorem Opening.Holds.ne_nil (h : o.Holds read) : read ≠ [] := by
  rintro rfl
  cases h.reached

theorem Opening.Holds.not_begins (h : o.Holds read) (hb : ¬(o.low ≤ b ∧ b ≤ o.high)) :
    ¬Begins (read ++ [b]) := by
  apply not_begins_of_getLast?
  rw [List.foldl_append, h.reached, List.foldl_cons, List.foldl_nil, step_outside _ hb,
    ← List.nil_append [none], enter_append, Decoder.behind, List.getLast?_concat]

/-- An open character that does not go on is an invalid part. -/
theorem Opening.Holds.invalid (h : o.Holds read)
    (hrest : ∀ b, rest.head? = some b → ¬(o.low ≤ b ∧ b ≤ o.high)) : Invalid read rest :=
  .of_head (.inr ⟨h.ne_nil, h.completes.begins h.bounds⟩) h.no_char
    fun b hb ↦ h.not_begins (hrest b hb)

theorem invalid_of_lead (h : lead b = .invalid) (rest : Bytes) : Invalid [b] rest := by
  have hlast : ([b].foldl Decoder.step {}).parts.getLast? = some none := by
    rw [List.foldl_cons, List.foldl_nil, step_lead, Decoder.enter, h]
    rfl
  refine .of_head (.inl rfl) (fun c hc ↦ ?_) fun b' _ hbegins ↦ ?_
  · rw [getLast?_parts_of_front hc] at hlast
    cases hlast
  · exact not_begins_of_getLast? hlast (hbegins.of_longer (List.prefix_append [b] [b']))

theorem Opening.Holds.next (h : Opening.Holds ⟨owed + 1, low, high, code⟩ read) (hlow : low ≤ b)
    (hhigh : b ≤ high) :
    Opening.Holds ⟨owed, 0x80, 0xBF, code * 64 + (b.toNat - 0x80)⟩ (read ++ [b]) where
  reached := by
    rw [List.foldl_append, h.reached, List.foldl_cons, List.foldl_nil, step_next [] hlow hhigh]
  low := UInt8.le_refl _
  bounds := show (0x80 : UInt8) ≤ 0xBF by decide
  completes := h.completes b hlow hhigh

/-- The machine cuts what it reads, both between characters and inside one. -/
theorem cuts_foldl (rest : Bytes) :
    Cuts rest (parts rest) ∧ ∀ o read, Opening.Holds o read →
      Cuts (read ++ rest) (rest.foldl Decoder.step ⟨[], some o⟩).finish := by
  induction rest with
  | nil =>
    refine ⟨.nil, fun o read h ↦ ?_⟩
    exact .invalid (h.invalid fun b hb ↦ nomatch hb) .nil
  | cons b rest ih =>
    obtain ⟨hbetween, hinside⟩ := ih
    have henter : Cuts (b :: rest) (parts (b :: rest)) := by
      rw [parts, List.foldl_cons, step_lead, Decoder.enter]
      cases hlead : lead b with
      | single c =>
        rw [finish_foldl_step, ← List.singleton_append, eq_encodeChar_of_lead hlead]
        exact .char c hbetween
      | opens o => exact hinside o [b] (holds_of_lead hlead)
      | invalid =>
        rw [finish_foldl_step]
        exact .invalid (invalid_of_lead hlead rest) hbetween
    refine ⟨henter, fun o read h ↦ ?_⟩
    rw [List.foldl_cons]
    by_cases hb : o.low ≤ b ∧ b ≤ o.high
    · obtain ⟨owed, low, high, code⟩ := o
      cases owed with
      | zero =>
        rw [step_last [] hb.1 hb.2, finish_foldl_step, ← List.singleton_append, ← List.append_assoc,
          h.completes b hb.1 hb.2]
        exact .char _ hbetween
      | succ owed =>
        rw [step_next [] hb.1 hb.2, ← List.singleton_append, ← List.append_assoc]
        exact hinside _ _ (h.next hb.1 hb.2)
    · -- the byte is read again, as if it stood between characters
      have hagain := finish_foldl_step [none] (b :: rest)
      rw [List.foldl_cons, step_lead] at hagain
      rw [step_outside [] hb, hagain]
      exact .invalid (h.invalid fun b' hb' ↦ Option.some.inj hb' ▸ hb) henter

/-! ## The cut -/

/-- The front of a cut. -/
theorem Cuts.front {parts : List (Option Char)} (h : Cuts bytes parts) :
    bytes = [] ∧ parts = [] ∨
      (∃ c rest later, bytes = String.utf8EncodeChar c ++ rest ∧ parts = some c :: later ∧
        Cuts rest later) ∨
      ∃ part rest later, bytes = part ++ rest ∧ Invalid part rest ∧ parts = none :: later ∧
        Cuts rest later := by
  cases h with
  | nil => exact .inl ⟨rfl, rfl⟩
  | char c h => exact .inr (.inl ⟨c, _, _, rfl, rfl, h⟩)
  | invalid hpart h => exact .inr (.inr ⟨_, _, _, rfl, hpart, rfl, h⟩)

theorem Invalid.ne_nil (h : Invalid part rest) : part ≠ [] := by
  rcases h.shape with hone | ⟨hne, -⟩
  · exact List.ne_nil_of_length_pos (by omega)
  · exact hne

/-- Two characters at the same place are the same. -/
theorem encodeChar_append_inj {c' : Char} {rest' : Bytes}
    (h : String.utf8EncodeChar c ++ rest = String.utf8EncodeChar c' ++ rest') :
    c = c' ∧ rest = rest' := by
  have hc := getLast?_parts_of_front (List.prefix_append (String.utf8EncodeChar c) rest)
  have hc' := getLast?_parts_of_front (List.prefix_append (String.utf8EncodeChar c') rest')
  rw [h, hc'] at hc
  cases hc
  exact ⟨rfl, List.append_cancel_left h⟩

/-- Two invalid parts at the same place have the same length. -/
theorem Invalid.length_le {part' rest' : Bytes} (h : Invalid part rest) (h' : Invalid part' rest')
    (heq : part ++ rest = part' ++ rest') : part.length ≤ part'.length := by
  rcases h.shape with hone | ⟨-, hbegins⟩
  · have hpos := List.length_pos_iff.2 h'.ne_nil
    omega
  · exact h'.longest part (heq ▸ List.prefix_append part rest) hbegins

theorem Invalid.append_inj {part' rest' : Bytes} (h : Invalid part rest)
    (h' : Invalid part' rest') (heq : part ++ rest = part' ++ rest') :
    part = part' ∧ rest = rest' :=
  List.append_inj heq (Nat.le_antisymm (h.length_le h' heq) (h'.length_le h heq.symm))

/-- There is only one cut. -/
theorem Cuts.unique {parts parts' : List (Option Char)} (h : Cuts bytes parts)
    (h' : Cuts bytes parts') : parts = parts' := by
  induction h generalizing parts' with
  | nil =>
    rcases h'.front with ⟨-, rfl⟩ | ⟨c, rest, later, heq, -, -⟩ | ⟨part, rest, later, heq, hpart, -⟩
    · rfl
    · exact absurd (List.append_eq_nil_iff.1 heq.symm).1 (encodeChar_ne_nil c)
    · exact absurd (List.append_eq_nil_iff.1 heq.symm).1 hpart.ne_nil
  | char c h ih =>
    rcases h'.front with ⟨heq, -⟩ | ⟨c', rest, later, heq, rfl, hrest⟩ |
      ⟨part, rest, later, heq, hpart, -⟩
    · exact absurd (List.append_eq_nil_iff.1 heq).1 (encodeChar_ne_nil c)
    · obtain ⟨rfl, rfl⟩ := encodeChar_append_inj heq
      rw [ih hrest]
    · exact absurd (heq ▸ List.prefix_append _ _) (hpart.no_char c)
  | invalid hpart h ih =>
    rcases h'.front with ⟨heq, -⟩ | ⟨c', rest, later, heq, -⟩ |
      ⟨part, rest, later, heq, hpart', rfl, hrest⟩
    · exact absurd (List.append_eq_nil_iff.1 heq).1 hpart.ne_nil
    · exact absurd (heq ▸ List.prefix_append _ _) (hpart.no_char c')
    · obtain ⟨rfl, rfl⟩ := hpart.append_inj hpart' heq
      rw [ih hrest]

/-- **The parts of a byte sequence.** They are its one cut into characters and invalid parts that
are as long as they can be. -/
theorem cuts_iff {parts : List (Option Char)} : Cuts bytes parts ↔ parts = Utf8.parts bytes := by
  have hparts := (cuts_foldl bytes).1
  constructor
  · intro h
    exact h.unique hparts
  · rintro rfl
    exact hparts

/-- An overlong character is two invalid parts, and the beginning of a longer one is a single
part. -/
example : parts [0xE0, 0x80, 0xF0, 0x9F, 0x98, 0x0A] = [none, none, none, some '\n'] := by decide

/-- A character in the text stands in the bytes, and what follows it is read by itself. -/
theorem exists_of_parts_eq {before after : List (Option Char)}
    (h : parts bytes = before ++ some c :: after) :
    ∃ front rest, bytes = front ++ (String.utf8EncodeChar c ++ rest) ∧ parts rest = after := by
  induction before generalizing bytes with
  | nil =>
    rcases (cuts_iff.2 h.symm).front with ⟨-, hnil⟩ | ⟨c', rest, later, rfl, heq, hrest⟩ |
      ⟨part, rest, later, -, -, heq, -⟩
    · cases hnil
    · cases heq
      exact ⟨[], rest, rfl, (cuts_iff.1 hrest).symm⟩
    · cases heq
  | cons x before ih =>
    obtain ⟨part, rest, rfl, hrest⟩ : ∃ part rest, bytes = part ++ rest ∧
        parts rest = before ++ some c :: after := by
      rcases (cuts_iff.2 h.symm).front with ⟨-, hnil⟩ | ⟨c', rest, later, rfl, heq, hrest⟩ |
        ⟨part, rest, later, rfl, -, heq, hrest⟩
      · cases hnil
      · cases heq
        exact ⟨_, rest, rfl, (cuts_iff.1 hrest).symm⟩
      · cases heq
        exact ⟨part, rest, rfl, (cuts_iff.1 hrest).symm⟩
    obtain ⟨front, rest, rfl, hafter⟩ := ih hrest
    exact ⟨part ++ front, rest, by rw [List.append_assoc], hafter⟩

/-! ## Restart -/

theorem low_of_enter {parts : List (Option Char)} (h : (Decoder.enter parts b).opening = some o) :
    0x80 ≤ o.low := by
  rw [Decoder.enter] at h
  cases hlead : lead b with
  | single c =>
    rw [hlead] at h
    cases h
  | opens o' =>
    rw [hlead] at h
    cases h
    exact (holds_of_lead hlead).low
  | invalid =>
    rw [hlead] at h
    cases h

/-- What is open after a byte goes on with a byte from `0x80` on. -/
theorem low_of_step {d : Decoder} (h : (d.step b).opening = some o) : 0x80 ≤ o.low := by
  obtain ⟨parts, _ | ⟨owed, low, high, code⟩⟩ := d
  · exact low_of_enter h
  · by_cases hb : low ≤ b ∧ b ≤ high
    · cases owed with
      | zero =>
        rw [step_last parts hb.1 hb.2] at h
        cases h
      | succ owed =>
        rw [step_next parts hb.1 hb.2] at h
        cases h
        exact UInt8.le_refl _
    · rw [step_outside parts hb] at h
      exact low_of_enter h

theorem low_of_foldl_step (h : (bytes.foldl Decoder.step {}).opening = some o) :
    0x80 ≤ o.low := by
  rcases List.eq_nil_or_concat bytes with rfl | ⟨bytes, b, rfl⟩
  · cases h
  · rw [List.concat_eq_append, List.foldl_append, List.foldl_cons, List.foldl_nil] at h
    exact low_of_step h

/-- A byte below `0x80` ends what is open and stands for its own character. -/
theorem step_of_lt {d : Decoder} (hd : ∀ o, d.opening = some o → 0x80 ≤ o.low) (hb : b < 0x80) :
    d.step b = ⟨some (Char.ofNat b.toNat) :: d.finish.reverse, none⟩ := by
  have hlead : lead b = .single (Char.ofNat b.toNat) := if_pos hb
  obtain ⟨parts, _ | o⟩ := d
  · rw [step_lead, Decoder.enter, hlead, Decoder.finish]
    dsimp only
    rw [List.reverse_reverse]
  · have hlow := hd o rfl
    have hout : ¬(o.low ≤ b ∧ b ≤ o.high) := fun h ↦
      UInt8.not_le.2 hb (UInt8.le_trans hlow h.1)
    rw [step_outside parts hout, Decoder.enter, hlead, Decoder.finish]
    dsimp only
    rw [List.reverse_reverse]

/-- **Restart.** What stands before a byte below `0x80` and what stands after it are read as if the
other were not there. -/
theorem parts_append_cons (bytes : Bytes) (hb : b < 0x80) (rest : Bytes) :
    parts (bytes ++ b :: rest) = parts bytes ++ some (Char.ofNat b.toNat) :: parts rest := by
  rw [parts, List.foldl_append, List.foldl_cons, step_of_lt (fun _ ↦ low_of_foldl_step) hb,
    finish_foldl_step, List.reverse_cons, List.reverse_reverse, List.append_assoc,
    List.singleton_append, ← parts]

theorem lossy_append_cons (bytes : Bytes) (hb : b < 0x80) (rest : Bytes) :
    lossy (bytes ++ b :: rest) = lossy bytes ++ Char.ofNat b.toNat :: lossy rest := by
  rw [lossy, parts_append_cons bytes hb, List.map_append, List.map_cons]
  rfl

theorem lossy_eq_nil_iff : lossy bytes = [] ↔ bytes = [] := by
  constructor
  · intro h
    rcases (cuts_iff.2 (List.map_eq_nil_iff.1 h).symm).front with ⟨rfl, -⟩ | ⟨_, _, _, -, hnil, -⟩ |
      ⟨_, _, _, -, -, hnil, -⟩
    · rfl
    · cases hnil
    · cases hnil
  · rintro rfl
    rfl

/-- A character of the text that is no replacement stands in the bytes. -/
theorem exists_of_lossy_eq {before after : List Char} (h : lossy bytes = before ++ c :: after)
    (hc : c ≠ replacement) :
    ∃ front rest, bytes = front ++ (String.utf8EncodeChar c ++ rest) ∧ lossy rest = after := by
  obtain ⟨first, later, hparts, -, hlater⟩ := List.map_eq_append_iff.1 h
  obtain ⟨x, tail, rfl, hx, htail⟩ := List.map_eq_cons_iff.1 hlater
  obtain rfl : x = some c := by
    cases x with
    | none => exact absurd hx.symm hc
    | some c' => exact congrArg some hx
  obtain ⟨front, rest, rfl, hrest⟩ := exists_of_parts_eq hparts
  exact ⟨front, rest, rfl, by rw [lossy, hrest, htail]⟩

end AgentSession.Utf8
