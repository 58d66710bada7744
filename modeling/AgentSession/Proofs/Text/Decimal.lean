import AgentSession.Text.Decimal
/-!
# Canonical numerals

A text is read by `Decimal.canonical` exactly if it is what printing a number gives, and then as
that number (`Decimal.canonical_eq_some_iff`). So a number has one numeral, and two texts that are
read as the same number are the same text.

Reading goes from the left, and so does the induction: more digits behind the numeral of a positive
number give the numeral of what they are read as (`Decimal.toDigits_foldl`). That the number is
positive is what forbids needless zeros.
-/

namespace AgentSession.Decimal

/-! ## Digits -/

theorem digitChar_of_digit? {c : Char} {d : Nat} (h : digit? c = some d) :
    d < 10 ∧ Nat.digitChar d = c := by
  rw [digit?] at h
  split at h
  · rename_i hc
    obtain ⟨hlow, hhigh⟩ := hc
    have hlow : 48 ≤ c.toNat := hlow
    have hhigh : c.toNat ≤ 57 := hhigh
    have hd : c.toNat - 48 = d := Option.some.inj h
    have hlt : d < 10 := by omega
    refine ⟨hlt, Char.toNat_inj.1 ?_⟩
    rw [Nat.toNat_digitChar_of_lt_ten hlt]
    omega
  · cases h

theorem map_digitChar_filterMap_digit? {text : List Char} (h : ∀ c ∈ text, (digit? c).isSome) :
    (text.filterMap digit?).map Nat.digitChar = text := by
  induction text with
  | nil => rfl
  | cons c rest ih =>
    obtain ⟨hc, hrest⟩ := List.forall_mem_cons.1 h
    obtain ⟨d, hd⟩ := Option.isSome_iff_exists.1 hc
    rw [List.filterMap_cons_some hd, List.map_cons, (digitChar_of_digit? hd).2, ih hrest]

/-! ## Numerals -/

/-- More digits behind the numeral of a positive number give the numeral of what is then read. -/
theorem toDigits_foldl {n : Nat} {digits : List Nat} (hn : 0 < n) (h : ∀ d ∈ digits, d < 10) :
    Nat.toDigits 10 (digits.foldl (fun n d ↦ n * 10 + d) n) =
      Nat.toDigits 10 n ++ digits.map Nat.digitChar := by
  induction digits generalizing n with
  | nil => simp
  | cons d digits ih =>
    obtain ⟨hd, hdigits⟩ := List.forall_mem_cons.1 h
    have hstep : Nat.toDigits 10 (n * 10 + d) = Nat.toDigits 10 n ++ [Nat.digitChar d] := by
      rw [Nat.mul_comm, ← Nat.toDigits_append_toDigits (by omega) hn hd,
        Nat.toDigits_of_lt_base hd]
    rw [List.foldl_cons, ih (by omega) hdigits, hstep, List.append_assoc, List.map_cons]
    rfl

theorem toDigits_of_canonical {text : List Char} {n : Nat} (h : canonical text = some n) :
    Nat.toDigits 10 n = text := by
  rw [canonical] at h
  split at h
  · rename_i hcanonical
    have hn : ofDigits (text.filterMap digit?) = n := Option.some.inj h
    rw [isCanonical.eq_def] at hcanonical
    split at hcanonical
    · cases hcanonical
    · rw [← hn]
      rfl
    · rename_i c rest _
      rw [Bool.and_eq_true, bne_iff_ne, List.all_eq_true] at hcanonical
      obtain ⟨hc, hdigits⟩ := hcanonical
      obtain ⟨d, hd⟩ := Option.isSome_iff_exists.1 (hdigits c List.mem_cons_self)
      obtain ⟨hlt, hchar⟩ := digitChar_of_digit? hd
      have hpos : 0 < d := by
        apply Nat.pos_of_ne_zero
        intro hzero
        exact hc (by rw [← hchar, hzero]; rfl)
      -- the first digit is a positive number by itself, and the others stand behind it
      have hrest : ∀ e ∈ rest.filterMap digit?, e < 10 := by
        intro e he
        obtain ⟨c', -, he⟩ := List.mem_filterMap.1 he
        exact (digitChar_of_digit? he).1
      have hofDigits : ofDigits (d :: rest.filterMap digit?) =
          (rest.filterMap digit?).foldl (fun n d ↦ n * 10 + d) d := by
        rw [ofDigits, List.foldl_cons, Nat.zero_mul, Nat.zero_add]
      rw [← hn, List.filterMap_cons_some hd, hofDigits, toDigits_foldl hpos hrest,
        Nat.toDigits_of_lt_base hlt, hchar,
        map_digitChar_filterMap_digit? fun c' hc' ↦ hdigits c' (List.mem_cons_of_mem _ hc')]
      rfl
  · cases h

theorem head?_toDigits_ne_zero {n : Nat} (hn : 0 < n) : (Nat.toDigits 10 n).head? ≠ some '0' := by
  induction n using Nat.strongRecOn with
  | ind n ih =>
    by_cases hlt : n < 10
    · rw [Nat.toDigits_of_lt_base hlt]
      simp only [List.head?_cons, ne_eq, Option.some.injEq, Nat.digitChar_eq_zero]
      omega
    · obtain ⟨c, rest, hcons⟩ := List.exists_cons_of_ne_nil (Nat.toDigits_ne_nil (n := n / 10))
      have hhead := ih (n / 10) (by omega) (by omega)
      rw [hcons] at hhead
      rw [Nat.toDigits_of_base_le (by omega) (by omega), hcons]
      exact hhead

theorem isCanonical_toDigits (n : Nat) : isCanonical (Nat.toDigits 10 n) = true := by
  rw [isCanonical.eq_def]
  split
  · rename_i htext
    exact absurd htext Nat.toDigits_ne_nil
  · rfl
  · rename_i c rest hne htext
    have hpos : 0 < n := by
      apply Nat.pos_of_ne_zero
      intro hzero
      rw [hzero, Nat.toDigits_zero] at htext
      obtain ⟨rfl, rfl⟩ := List.cons.inj htext
      exact hne rfl rfl
    rw [Bool.and_eq_true, bne_iff_ne, List.all_eq_true]
    refine ⟨fun hc ↦ ?_, fun d hd ↦ ?_⟩
    · refine head?_toDigits_ne_zero hpos ?_
      rw [htext, List.head?_cons, hc]
    · rw [← htext] at hd
      have hdigit := Nat.isDigit_of_mem_toDigits (by omega) (by omega) hd
      rw [Char.isDigit, Bool.and_eq_true, decide_eq_true_iff, decide_eq_true_iff] at hdigit
      have hbounds : '0' ≤ d ∧ d ≤ '9' := hdigit
      rw [digit?, if_pos hbounds]
      rfl

/-- **Numerals.** A text is read as a number exactly if it is what printing that number gives. -/
theorem canonical_eq_some_iff {text : List Char} {n : Nat} :
    canonical text = some n ↔ text = Nat.toDigits 10 n := by
  constructor
  · intro h
    exact (toDigits_of_canonical h).symm
  · rintro rfl
    obtain ⟨m, hm⟩ : ∃ m, canonical (Nat.toDigits 10 n) = some m := by
      rw [canonical, if_pos (isCanonical_toDigits n)]
      exact ⟨_, rfl⟩
    -- it is read as a number with the same numeral, which is the number itself
    have hsame : Nat.ofDigitChars 10 (Nat.toDigits 10 m) 0 =
        Nat.ofDigitChars 10 (Nat.toDigits 10 n) 0 := by
      rw [toDigits_of_canonical hm]
    rw [Nat.ofDigitChars_ten_toDigits, Nat.ofDigitChars_ten_toDigits] at hsame
    rw [hm, hsame]

/-- A number has one numeral. -/
theorem eq_of_canonical {s t : List Char} {n : Nat} (hs : canonical s = some n)
    (ht : canonical t = some n) : s = t := by
  rw [canonical_eq_some_iff.1 hs, canonical_eq_some_iff.1 ht]

end AgentSession.Decimal
