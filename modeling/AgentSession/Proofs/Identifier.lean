import AgentSession.Identifier
import AgentSession.Proofs.Text.Cut
import AgentSession.Proofs.Text.Utf8
import Mathlib.Data.List.Forall2
import Mathlib.Data.Nat.Digits.Defs
/-!
# Identifiers are read back, told apart and ordered

An identifier is read back as the kind and the word that it was made of. It is of that kind and of
no other. Identifiers of one kind are ordered, byte by byte, as their words are
(`Identifier.faithful_ordered`).

## What is assumed of numerals

How words are written and read by themselves is a parameter. `Ulid.Numerals.IsBase32` says what is
known of it: a word is written as its digits to the base 32, told by quotients and remainders, and
digits are read as the word that is their sum, each multiplied by its power of the base. That the
two are inverse is proved here (`Ulid.ofDigits_places`), and so is that writing keeps order.

## Order

Numerals grow at the end: the digits of a number are those of its quotient by the base, and the
remainder behind them. Two numerals of one length are told apart where they first differ, so the
quotients are compared first and the remainders only if these are equal. This is also how the
numbers themselves are compared, and the induction on the number of digits is no more than that
(`Ulid.encode_digits_lt_iff`).
-/

namespace AgentSession

open Utf8 (encode encode_append)

/-- What stands behind texts of one length counts only if they are equal. -/
theorem append_lt_append_iff {α : Type} [LT α] {xs ys s t : List α}
    (h : xs.length = ys.length) : xs ++ s < ys ++ t ↔ xs < ys ∨ xs = ys ∧ s < t := by
  induction xs generalizing ys with
  | nil =>
    obtain rfl := List.eq_nil_of_length_eq_zero h.symm
    simp
  | cons x xs ih =>
    cases ys with
    | nil => cases h
    | cons y ys =>
      rw [List.cons_append, List.cons_append, List.cons_lt_cons_iff, List.cons_lt_cons_iff,
        ih (Nat.succ.inj h), List.cons.injEq]
      tauto

namespace Ulid

variable {n m count : Nat} {text : List Char} {ds : List Nat}

/-! ## Digits -/

theorem digit_mod (n : Nat) : digit (n % 32) = digit n := by
  rw [digit, digit, Nat.mod_mod]

theorem digitValue?_digit : ∀ d < 32, digitValue? (digit d) = some d := by decide

theorem digitValue?_toUpper_digit : ∀ d < 32, digitValue? (digit d).toUpper = some d := by decide

theorem toLower_toUpper_digit : ∀ d < 32, (digit d).toUpper.toLower = digit d := by decide

/-- A digit is one byte. -/
theorem length_encode_digit : ∀ d < 32, (encode [digit d]).length = 1 := by decide

/-- The bytes of the digits are ordered as their values. -/
theorem encode_digit_lt_iff :
    ∀ d < 32, ∀ e < 32, encode [digit d] < encode [digit e] ↔ d < e := by decide

/-! ## Place values -/

/-- The values of the last `count` digits of a number, most significant first. -/
def places (n count : Nat) : List Nat := (List.range count).reverse.map fun i ↦ n / 32 ^ i % 32

theorem length_places (n count : Nat) : (places n count).length = count := by
  rw [places, List.length_map, List.length_reverse, List.length_range]

theorem lt_of_mem_places {d : Nat} (h : d ∈ places n count) : d < 32 := by
  obtain ⟨i, -, rfl⟩ := List.mem_map.1 h
  exact Nat.mod_lt _ (by omega)

theorem places_succ (n count : Nat) : places n (count + 1) = places (n / 32) count ++ [n % 32] := by
  have hplace (i : Nat) : n / 32 ^ (i + 1) % 32 = n / 32 / 32 ^ i % 32 := by
    rw [Nat.pow_succ', Nat.div_div_eq_div_mul]
  rw [places, places, List.range_succ_eq_map, List.reverse_cons, List.map_append,
    List.map_singleton, Nat.pow_zero, Nat.div_one, ← List.map_reverse, List.map_map]
  congr 2
  exact funext hplace

theorem digits_eq_map_places (n count : Nat) : digits n count = (places n count).map digit := by
  induction count generalizing n with
  | zero => rfl
  | succ count ih =>
    rw [digits, ih, places_succ, List.map_append, List.map_singleton, digit_mod]

/-- Digits add up to the number they were taken from, but for what did not fit. -/
theorem ofDigits_places (n count : Nat) :
    Nat.ofDigits 32 (places n count).reverse = n % 32 ^ count := by
  rw [places, ← List.map_reverse, List.reverse_reverse]
  induction count with
  | zero => rw [List.range_zero, List.map_nil, Nat.ofDigits_nil, Nat.pow_zero, Nat.mod_one]
  | succ count ih =>
    rw [List.range_succ, List.map_append, List.map_singleton, Nat.ofDigits_append, ih,
      Nat.ofDigits_singleton, List.length_map, List.length_range, Nat.mod_pow_succ]

/-- A word fits in 26 digits. -/
theorem lt_pow_digitCount (u : Ulid) : u.val < 32 ^ digitCount :=
  Nat.lt_of_lt_of_le u.isLt (by decide)

/-! ## Numerals -/

/-- A character stands for a digit in either case. -/
def StandsFor (c : Char) (d : Nat) : Prop := d < 32 ∧ (c = digit d ∨ c = (digit d).toUpper)

/-- Numerals of 26 digits to the base 32, written in upper case and read in either case. -/
structure Numerals.IsBase32 (numerals : Numerals) : Prop where
  /-- A word is written as its 26 digits in upper case, most significant first. -/
  write_eq : ∀ u : Ulid, numerals.write u = (places u digitCount).map fun d ↦ (digit d).toUpper
  /-- 26 digits, each of them in either case, are read as the word that they add up to. -/
  read_eq : ∀ {text : List Char} {ds : List Nat} {u : Ulid}, List.Forall₂ StandsFor text ds →
    ds.length = digitCount → Nat.ofDigits 32 ds.reverse = u.val → numerals.read text = some u

theorem digitValue?_of_standsFor {c : Char} {d : Nat} (h : StandsFor c d) :
    digitValue? c = some d := by
  obtain ⟨hd, rfl | rfl⟩ := h
  · exact digitValue?_digit d hd
  · exact digitValue?_toUpper_digit d hd

theorem mapM_digitValue? (h : List.Forall₂ StandsFor text ds) :
    text.mapM digitValue? = some ds := by
  induction h with
  | nil => rfl
  | cons hc _ ih =>
    rw [List.mapM_cons, digitValue?_of_standsFor hc, ih]
    rfl

theorem foldl_eq_ofDigits (ds : List Nat) :
    ds.foldl (fun n d ↦ n * 32 + d) 0 = Nat.ofDigits 32 ds.reverse := by
  rw [Nat.ofDigits_eq_foldr, List.foldr_reverse]
  congr
  funext n d
  rw [Nat.cast_id, Nat.add_comm, Nat.mul_comm]

/-- The numerals that identifiers are drawn and read with are of this sort. -/
theorem Numerals.isBase32_base32 : base32.IsBase32 where
  write_eq u := by
    rw [base32]
    dsimp only
    rw [digits_eq_map_places, List.map_map]
    rfl
  read_eq {text ds u} htext hlength hvalue := by
    rw [base32]
    dsimp only
    rw [parse, if_pos (htext.length_eq.trans hlength), mapM_digitValue? htext, Option.map_some,
      foldl_eq_ofDigits, hvalue]
    exact congrArg some (Fin.ofNat_val_eq_self u)

variable {numerals : Numerals}

/-- In an identifier, a word stands as its digits in lower case. -/
theorem toList_render (h : numerals.IsBase32) (u : Ulid) :
    (u.render numerals).toList = digits u digitCount := by
  rw [render, String.toList_ofList, h.write_eq, List.map_map, digits_eq_map_places]
  apply List.map_congr_left
  intro d hd
  exact toLower_toUpper_digit d (lt_of_mem_places hd)

/-- **Reading back.** The change of case is undone by reading digits in either. -/
theorem read_render (h : numerals.IsBase32) (u : Ulid) :
    numerals.read (u.render numerals).toList = some u := by
  have hdigits : List.Forall₂ StandsFor (digits u digitCount) (places u digitCount) := by
    rw [digits_eq_map_places, List.forall₂_map_left_iff, List.forall₂_same]
    intro d hd
    exact ⟨lt_of_mem_places hd, .inl rfl⟩
  have hvalue : Nat.ofDigits 32 (places u digitCount).reverse = u.val := by
    rw [ofDigits_places, Nat.mod_eq_of_lt (lt_pow_digitCount u)]
  rw [toList_render h]
  exact h.read_eq hdigits (length_places u digitCount) hvalue

/-! ## Order -/

theorem length_encode_digits (n count : Nat) : (encode (digits n count)).length = count := by
  induction count generalizing n with
  | zero => rfl
  | succ count ih =>
    rw [digits, encode_append, List.length_append, ih, ← digit_mod,
      length_encode_digit _ (Nat.mod_lt n (by omega))]

/-- **Order.** Numerals of one length are ordered as their numbers. -/
theorem encode_digits_lt_iff (hn : n < 32 ^ count) (hm : m < 32 ^ count) :
    encode (digits n count) < encode (digits m count) ↔ n < m := by
  induction count generalizing n m with
  | zero =>
    obtain rfl : n = 0 := Nat.lt_one_iff.1 hn
    obtain rfl : m = 0 := Nat.lt_one_iff.1 hm
    exact iff_of_false (List.lt_irrefl _) (Nat.lt_irrefl 0)
  | succ count ih =>
    have hn' : n / 32 < 32 ^ count := Nat.div_lt_of_lt_mul (Nat.pow_succ' ▸ hn)
    have hm' : m / 32 < 32 ^ count := Nat.div_lt_of_lt_mul (Nat.pow_succ' ▸ hm)
    have hlast : encode [digit n] < encode [digit m] ↔ n % 32 < m % 32 := by
      rw [← digit_mod n, ← digit_mod m]
      exact encode_digit_lt_iff _ (Nat.mod_lt n (by omega)) _ (Nat.mod_lt m (by omega))
    -- equal texts are not ordered in either way, so their numbers are not
    have hfront : encode (digits (n / 32) count) = encode (digits (m / 32) count) ↔
        n / 32 = m / 32 := by
      constructor
      · intro heq
        have hlt := ih hn' hm'
        have hgt := ih hm' hn'
        rw [heq, iff_false_left (List.lt_irrefl _)] at hlt hgt
        omega
      · intro heq
        rw [heq]
    rw [digits, digits, encode_append, encode_append,
      append_lt_append_iff ((length_encode_digits ..).trans (length_encode_digits ..).symm),
      ih hn' hm', hfront, hlast]
    omega

end Ulid

/-! ## Labels -/

/-- The labels that are read are those that are written. -/
theorem IdKind.ofLabel?_eq_some_iff {s : String} {kind : IdKind} :
    ofLabel? s = some kind ↔ s = kind.label := by
  constructor
  · intro h
    unfold ofLabel? at h
    split at h <;> cases h <;> rfl
  · rintro rfl
    cases kind <;> rfl

theorem IdKind.ofLabel?_label (kind : IdKind) : ofLabel? kind.label = some kind :=
  ofLabel?_eq_some_iff.2 rfl

theorem IdKind.label_inj {kind other : IdKind} : kind.label = other.label ↔ kind = other := by
  rw [← ofLabel?_eq_some_iff, ofLabel?_label, Option.some.injEq]

theorem IdKind.underscore_notMem_label (kind : IdKind) : '_' ∉ kind.label.toList := by
  cases kind <;> decide

namespace Identifier

variable {numerals : Ulid.Numerals} {kind : IdKind} {id : String}

/-- An identifier is of a kind if it is cut at its first underscore behind the label. -/
theorem hasKind_iff : hasKind id kind = true ↔
    ∃ rest, Text.splitFirst '_' id.toList = some (kind.label.toList, rest) := by
  rw [hasKind, List.isPrefixOf_iff_prefix]
  constructor
  · rintro ⟨rest, hid⟩
    refine ⟨rest, Text.splitFirst_eq_some_iff.2 ⟨?_, kind.underscore_notMem_label⟩⟩
    rw [← hid, List.append_assoc, List.singleton_append]
  · rintro ⟨rest, hcut⟩
    refine ⟨rest, ?_⟩
    rw [(Text.splitFirst_eq_some_iff.1 hcut).1, List.append_assoc, List.singleton_append]

theorem toList_ofUlid (kind : IdKind) (u : Ulid) (numerals : Ulid.Numerals) :
    (ofUlid kind u numerals).toList = kind.label.toList ++ '_' :: (u.render numerals).toList := by
  simp [ofUlid, toString]

/-- A label has no underscore, so an identifier is cut behind its label. -/
theorem splitFirst_ofUlid (kind : IdKind) (u : Ulid) (numerals : Ulid.Numerals) :
    Text.splitFirst '_' (ofUlid kind u numerals).toList =
      some (kind.label.toList, (u.render numerals).toList) :=
  Text.splitFirst_eq_some_iff.2 ⟨toList_ofUlid kind u numerals, kind.underscore_notMem_label⟩

theorem parse_ofUlid (h : numerals.IsBase32) (kind : IdKind) (u : Ulid) :
    parse (ofUlid kind u numerals) numerals = some (kind, u) := by
  rw [parse, splitFirst_ofUlid]
  dsimp only [Option.bind_eq_bind, Option.bind_some]
  rw [String.ofList_toList, IdKind.ofLabel?_label, Option.bind_some, Ulid.read_render h]
  rfl

theorem hasKind_ofUlid_iff (kind other : IdKind) (u : Ulid) (numerals : Ulid.Numerals) :
    hasKind (ofUlid kind u numerals) other = true ↔ other = kind := by
  rw [hasKind_iff, splitFirst_ofUlid]
  constructor
  · rintro ⟨rest, hcut⟩
    obtain ⟨hlabel, -⟩ := Prod.mk.inj (Option.some.inj hcut)
    exact (IdKind.label_inj.1 (String.toList_inj.1 hlabel)).symm
  · rintro rfl
    exact ⟨_, rfl⟩

theorem encode_ofUlid_lt_iff (h : numerals.IsBase32) (kind : IdKind) (u v : Ulid) :
    encode (ofUlid kind u numerals).toList < encode (ofUlid kind v numerals).toList ↔ u < v := by
  have hsplit (w : Ulid) : encode (ofUlid kind w numerals).toList =
      encode (kind.label.toList ++ ['_']) ++ encode (Ulid.digits w Ulid.digitCount) := by
    rw [toList_ofUlid, Ulid.toList_render h, ← encode_append, List.append_assoc,
      List.singleton_append]
  rw [hsplit, hsplit, append_lt_append_iff rfl, iff_false_intro (List.lt_irrefl _), false_or,
    and_iff_right rfl,
    Ulid.encode_digits_lt_iff (Ulid.lt_pow_digitCount u) (Ulid.lt_pow_digitCount v), Fin.lt_def]

/-- **Identifiers.** An identifier is read back as its kind and its word, it is of its kind and of
no other, and the identifiers of a kind are ordered, byte by byte, as their words. -/
theorem faithful_ordered (h : numerals.IsBase32) (kind : IdKind) (u v : Ulid) :
    parse (ofUlid kind u numerals) numerals = some (kind, u) ∧
      (∀ other, hasKind (ofUlid kind u numerals) other = true ↔ other = kind) ∧
      (encode (ofUlid kind u numerals).toList < encode (ofUlid kind v numerals).toList ↔ u < v) :=
  ⟨parse_ofUlid h kind u, fun other ↦ hasKind_ofUlid_iff kind other u numerals,
    encode_ofUlid_lt_iff h kind u v⟩

/-- Counting on from a word whose last two digits are the greatest. -/
theorem faithful_ordered_carry :
    Ulid.Numerals.base32.IsBase32 ∧
      ofUlid .thinking 1777027686520646174104517696511197183 = "thk_01arz3ndektsv4rrffq69g5fzz" ∧
      ofUlid .thinking 1777027686520646174104517696511197184 = "thk_01arz3ndektsv4rrffq69g5g00" ∧
      parse "thk_01arz3ndektsv4rrffq69g5fzz" =
        some (.thinking, 1777027686520646174104517696511197183) ∧
      hasKind "thk_01arz3ndektsv4rrffq69g5fzz" .thinking = true ∧
      hasKind "thk_01arz3ndektsv4rrffq69g5fzz" .thread = false ∧
      encode "thk_01arz3ndektsv4rrffq69g5fzz".toList <
        encode "thk_01arz3ndektsv4rrffq69g5g00".toList := by
  have hlast : ofUlid .thinking 1777027686520646174104517696511197183 =
      "thk_01arz3ndektsv4rrffq69g5fzz" := by decide
  have hnext : ofUlid .thinking 1777027686520646174104517696511197184 =
      "thk_01arz3ndektsv4rrffq69g5g00" := by decide
  obtain ⟨hparse, hkind, horder⟩ := faithful_ordered Ulid.Numerals.isBase32_base32 .thinking
    1777027686520646174104517696511197183 1777027686520646174104517696511197184
  rw [hlast] at hparse hkind horder
  rw [hnext] at horder
  refine ⟨Ulid.Numerals.isBase32_base32, hlast, hnext, hparse, (hkind .thinking).2 rfl, ?_,
    horder.2 (by decide)⟩
  exact Bool.eq_false_iff.2 fun hthread ↦ IdKind.noConfusion ((hkind .thread).1 hthread)

end Identifier

end AgentSession
