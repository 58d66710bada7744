import AgentSession.Json.Printer
import AgentSession.Proofs.Json.Token
import AgentSession.Proofs.Text.Decimal
/-!
# Cutting printed values into tokens

Compact text has no blanks, so a token of it ends with the text or with the first character that
does not belong to it. What comes behind a value there is a comma or a closing bracket, which
belongs to no word and no literal. So a text can be read by itself: `Token.Closes` says which tokens
it adds once its last one has ended, and texts that are put behind each other add their tokens one
after the other (`Token.Closes.append`).

A printed text is one token, with the characters that were printed (`Token.closes_renderText`), and
so is a printed integer of 64 bits, with or without a sign (`Token.closes_renderInt`). That is not
so for doubles, which are not read back exactly.
-/

namespace AgentSession

/-! ## Integers -/

namespace Literal

theorem spanDigits_eq {text : List Char} (h : ∀ c ∈ text, (Decimal.digit? c).isSome) :
    spanDigits text = (text.filterMap Decimal.digit?, []) := by
  induction text with
  | nil => rfl
  | cons c rest ih =>
    obtain ⟨hc, hrest⟩ := List.forall_mem_cons.1 h
    rw [Decimal.digit?] at hc
    split at hc
    · rename_i hdigit
      have hd : Decimal.digit? c = some (c.toNat - '0'.toNat) := by
        rw [Decimal.digit?, if_pos hdigit]
      rw [spanDigits, if_pos hdigit, ih hrest, List.filterMap_cons_some hd]
    · cases hc

/-- A canonical numeral has digits only, and its first digit is zero only if it is the only one. -/
theorem exists_digits_of_isCanonical {text : List Char} (h : Decimal.isCanonical text = true) :
    (∀ c ∈ text, (Decimal.digit? c).isSome) ∧
      ∃ d ds, text.filterMap Decimal.digit? = d :: ds ∧ (d = 0 → ds = []) := by
  rw [Decimal.isCanonical.eq_def] at h
  split at h
  · cases h
  · exact ⟨List.forall_mem_singleton.2 rfl, 0, [], rfl, fun _ ↦ rfl⟩
  · rename_i c rest _
    rw [Bool.and_eq_true, bne_iff_ne, List.all_eq_true] at h
    obtain ⟨hc, hdigits⟩ := h
    obtain ⟨d, hd⟩ := Option.isSome_iff_exists.1 (hdigits c List.mem_cons_self)
    refine ⟨hdigits, d, rest.filterMap Decimal.digit?, List.filterMap_cons_some hd, fun hzero ↦ ?_⟩
    obtain ⟨-, hchar⟩ := Decimal.digitChar_of_digit? hd
    exact absurd (by rw [← hchar, hzero]; rfl) hc

/-- A numeral is a literal, with or without a sign. -/
theorem parse_numeral {text : List Char} (h : Decimal.isCanonical text = true) :
    parse text = some ⟨false, text.filterMap Decimal.digit?, none, none⟩ ∧
      parse ('-' :: text) = some ⟨true, text.filterMap Decimal.digit?, none, none⟩ := by
  obtain ⟨hall, d, ds, hdigits, hzero⟩ := exists_digits_of_isCanonical h
  have hspan : spanDigits text = (d :: ds, []) := by rw [spanDigits_eq hall, hdigits]
  have hsign : ∀ rest, text ≠ '-' :: rest := by
    rintro rest rfl
    exact Bool.false_ne_true (hall '-' List.mem_cons_self)
  rw [hdigits]
  constructor
  · rw [parse.eq_def]
    split
    rename_i hmatch
    split at hmatch
    · exact absurd rfl (hsign _)
    · cases hmatch
      rw [hspan]
      cases d with
      | zero => rw [hzero rfl]; rfl
      | succ d => rfl
  · rw [parse.eq_def]
    simp only [hspan]
    cases d with
    | zero => rw [hzero rfl]; rfl
    | succ d => rfl

/-- The integers that a number of 64 bits may be, with a sign or without. -/
def Fits (i : Int) : Prop := -(Nat.pow 2 63 : Nat) ≤ i ∧ i < wordBound

/-- A printed integer of 64 bits is a literal with this value. -/
theorem value_parse_renderInt {i : Int} (h : Fits i) :
    ∃ l, parse (Json.renderInt i) = some l ∧ l.value = some (.int i) := by
  have hcanonical := Decimal.isCanonical_toDigits i.natAbs
  obtain ⟨hpos, hneg⟩ := parse_numeral hcanonical
  have hof : Decimal.ofDigits ((Nat.toDigits 10 i.natAbs).filterMap Decimal.digit?) = i.natAbs := by
    have h' := Decimal.canonical_eq_some_iff.2 (Eq.refl (Nat.toDigits 10 i.natAbs))
    rw [Decimal.canonical, if_pos hcanonical] at h'
    exact Option.some.inj h'
  obtain ⟨hleast, hgreatest⟩ := h
  rw [Json.renderInt]
  split
  · refine ⟨_, hneg, ?_⟩
    have hinteger :
        integer? ⟨true, (Nat.toDigits 10 i.natAbs).filterMap Decimal.digit?, none, none⟩ =
          some i := by
      simp only [integer?, hof, if_true]
      rw [if_pos ⟨by omega, by omega⟩]
      congr 1
      omega
    rw [value, hinteger]
  · refine ⟨_, hpos, ?_⟩
    have hinteger :
        integer? ⟨false, (Nat.toDigits 10 i.natAbs).filterMap Decimal.digit?, none, none⟩ =
          some i := by
      simp only [integer?, hof, Bool.false_eq_true, if_false]
      rw [if_pos (by omega)]
      congr 1
      omega
    rw [value, hinteger]

end Literal

namespace Token

open Lexer

/-! ## Texts behind each other -/

/-- A text that is read in the middle of nothing comes to its end with a token, and these are the
tokens then, newest first. -/
def Closes (tokens : List Token) (text : List Char) (tokens' : List Token) : Prop :=
  (Lexer.read ⟨tokens, .between⟩ text).bind closed = some ⟨tokens', .between⟩

/-- What ends every word and every literal. -/
def EndsToken (c : Char) : Prop := c ∈ [',', ':', ']', '\x7d']

instance (c : Char) : Decidable (EndsToken c) := inferInstanceAs (Decidable (c ∈ _))

variable {tokens tokens' tokens'' : List Token} {text rest : List Char} {c : Char}

theorem not_continues_of_endsToken {l l' : Lexer} (hl : l.closed = some l') (hc : EndsToken c) :
    ¬l.Continues c := by
  obtain ⟨tokens, scan⟩ := l
  have hnot : ∀ c, EndsToken c → isLetter c = false ∧ inLiteral c = false := by
    simp only [EndsToken, List.forall_mem_cons]
    exact ⟨by decide, by decide, by decide, by decide, List.forall_mem_nil _⟩
  obtain ⟨hletter, hliteral⟩ := hnot c hc
  cases scan with
  | between => exact id
  | word => exact (Bool.eq_false_iff.1 hletter)
  | number => exact (Bool.eq_false_iff.1 hliteral)
  | text | escape | digits => cases hl

theorem closes_nil (tokens : List Token) : Closes tokens [] tokens := rfl

theorem Closes.append (h : Closes tokens text tokens') (hc : EndsToken c)
    (hrest : Closes tokens' (c :: rest) tokens'') : Closes tokens (text ++ c :: rest) tokens'' := by
  obtain ⟨l, hread, hclosed⟩ := Option.bind_eq_some_iff.1 h
  have hends := not_continues_of_endsToken hclosed hc
  rw [Closes, read_append, hread, Option.bind_some, read_cons, ← bind_closed_step hends, hclosed,
    Option.bind_some, ← read_cons]
  exact hrest

/-- A character that is a token by itself. -/
theorem Closes.cons {token : Token} (hc : enter tokens c = some ⟨token :: tokens, .between⟩)
    (h : Closes (token :: tokens) rest tokens') : Closes tokens (c :: rest) tokens' := by
  have hstep : step ⟨tokens, .between⟩ c = some ⟨token :: tokens, .between⟩ := hc
  rw [Closes, read_cons, hstep]
  exact h

theorem scan_of_closes (h : Closes [] text tokens) : scan text = some tokens.reverse := by
  obtain ⟨l, hread, hclosed⟩ := Option.bind_eq_some_iff.1 h
  have hfinish := bind_closed_finish l
  rw [hclosed] at hfinish
  rw [scan]
  change (Lexer.read {} text).bind finish = _
  rw [hread, Option.bind_some, ← hfinish]
  rfl

/-! ## Words and integers -/

theorem closes_null (tokens : List Token) :
    Closes tokens ['n', 'u', 'l', 'l'] (.null :: tokens) := rfl

theorem closes_true (tokens : List Token) :
    Closes tokens ['t', 'r', 'u', 'e'] (.bool true :: tokens) := rfl

theorem closes_false (tokens : List Token) :
    Closes tokens ['f', 'a', 'l', 's', 'e'] (.bool false :: tokens) := rfl

theorem read_number {chars : List Char} (h : ∀ c ∈ text, inLiteral c = true) :
    Lexer.read ⟨tokens, .number chars⟩ text = some ⟨tokens, .number (text.reverse ++ chars)⟩ := by
  induction text generalizing chars with
  | nil => rfl
  | cons c text ih =>
    obtain ⟨hc, htext⟩ := List.forall_mem_cons.1 h
    have hstep : step ⟨tokens, .number chars⟩ c = some ⟨tokens, .number (c :: chars)⟩ := if_pos hc
    rw [read_cons, hstep, Option.bind_some, ih htext, List.reverse_cons, List.append_assoc]
    rfl

theorem startsLiteral_of_mem_renderInt {i : Int} (hc : c ∈ Json.renderInt i) :
    startsLiteral c = true := by
  have hdigits : ∀ c ∈ Nat.toDigits 10 i.natAbs, startsLiteral c = true := by
    intro c hc
    have hdigit := (Literal.exists_digits_of_isCanonical (Decimal.isCanonical_toDigits _)).1 c hc
    rw [Decimal.digit?] at hdigit
    split at hdigit
    · rename_i hbounds
      simp [startsLiteral, hbounds]
    · cases hdigit
  rw [Json.renderInt] at hc
  split at hc
  · rcases List.mem_cons.1 hc with rfl | hc
    · rfl
    · exact hdigits c hc
  · exact hdigits c hc

theorem enter_startsLiteral (hc : startsLiteral c = true) (tokens : List Token) :
    enter tokens c = some ⟨tokens, .number [c]⟩ := by
  rw [enter.eq_def]
  split
  case h_12 => rw [if_pos hc]
  all_goals exact absurd hc (by decide)

theorem closes_renderInt {i : Int} (h : Literal.Fits i) (tokens : List Token) :
    Closes tokens (Json.renderInt i) (.number (some (.int i)) :: tokens) := by
  obtain ⟨l, hparse, hvalue⟩ := Literal.value_parse_renderInt h
  have hall : ∀ c ∈ Json.renderInt i, startsLiteral c = true :=
    fun _ hc ↦ startsLiteral_of_mem_renderInt hc
  cases htext : Json.renderInt i with
  | nil =>
    rw [htext] at hparse
    cases hparse
  | cons c text =>
    rw [htext] at hparse hall
    obtain ⟨hc, hrest⟩ := List.forall_mem_cons.1 hall
    have hin : ∀ c ∈ text, inLiteral c = true := fun c hc ↦ by simp [inLiteral, hrest c hc]
    have hstep : step ⟨tokens, .between⟩ c = some ⟨tokens, .number [c]⟩ :=
      enter_startsLiteral hc tokens
    rw [Closes, read_cons, hstep, Option.bind_some, read_number hin, Option.bind_some]
    change (ofLiteral (text.reverse ++ [c]).reverse).map _ = _
    rw [List.reverse_append, List.reverse_reverse, List.reverse_singleton, List.singleton_append,
      ofLiteral, hparse, Option.map_some, hvalue]
    rfl

/-! ## Texts -/

theorem hexDigit?_digitChar : ∀ d < 16, hexDigit? (Nat.digitChar d) = some d := by decide

theorem TextUnit.ofCode_toNat (c : Char) (h : c.toNat < 0xD800) : ofCode c.toNat = .char c := by
  rw [ofCode, if_neg (by omega), Char.ofNat_toNat]

theorem read_digits {high low : Nat} (hhigh : high < 16) (hlow : low < 16)
    (tokens : List Token) (units : List TextUnit) :
    Lexer.read ⟨tokens, .digits units 1 0⟩ [Nat.digitChar high, Nat.digitChar low] =
      some ⟨tokens, .text (.ofCode (high * 16 + low) :: units)⟩ := by
  have hfirst : step ⟨tokens, .digits units 1 0⟩ (Nat.digitChar high) =
      some ⟨tokens, .digits units 0 high⟩ := by
    change (hexDigit? (Nat.digitChar high)).map _ = _
    rw [hexDigit?_digitChar high hhigh, Option.map_some, Nat.zero_mul, Nat.zero_add]
  have hsecond : step ⟨tokens, .digits units 0 high⟩ (Nat.digitChar low) =
      some ⟨tokens, .text (.ofCode (high * 16 + low) :: units)⟩ := by
    change (hexDigit? (Nat.digitChar low)).map _ = _
    rw [hexDigit?_digitChar low hlow]
    rfl
  rw [read_cons, hfirst, Option.bind_some, read_cons, hsecond]
  rfl

/-- A character is read back from the form in which it stands in a text. -/
theorem read_escapeChar (tokens : List Token) (units : List TextUnit) (c : Char) :
    Lexer.read ⟨tokens, .text units⟩ (Json.escapeChar c) =
      some ⟨tokens, .text (.char c :: units)⟩ := by
  rw [Json.escapeChar.eq_def]
  split
  case h_8 hquote hbackslash _ _ _ _ _ =>
    split
    · rename_i hcontrol
      have hlt : c.toNat < 32 := hcontrol
      have hdigits := read_digits (by omega : c.toNat / 16 < 16) (by omega : c.toNat % 16 < 16)
        tokens units
      rw [show c.toNat / 16 * 16 + c.toNat % 16 = c.toNat by omega,
        TextUnit.ofCode_toNat c (by omega)] at hdigits
      exact hdigits
    · rename_i hcontrol
      have hstep : step ⟨tokens, .text units⟩ c = some ⟨tokens, .text (.char c :: units)⟩ := by
        simp only [step]
        rw [if_neg hquote, if_neg hbackslash, if_neg hcontrol]
      rw [read_cons, hstep]
      rfl
  all_goals rfl

theorem read_flatMap_escapeChar (tokens : List Token) (units : List TextUnit) (text : List Char) :
    Lexer.read ⟨tokens, .text units⟩ (text.flatMap Json.escapeChar) =
      some ⟨tokens, .text ((text.map .char).reverse ++ units)⟩ := by
  induction text generalizing units with
  | nil => rfl
  | cons c text ih =>
    rw [List.flatMap_cons, read_append, read_escapeChar, Option.bind_some, ih, List.map_cons,
      List.reverse_cons, List.append_assoc]
    rfl

theorem joinUnits_map_char (text after : List Char) :
    joinUnits (text.map .char) after = some (text.reverse ++ after) := by
  induction text generalizing after with
  | nil => rfl
  | cons c text ih =>
    rw [List.map_cons, joinUnits, ih, List.reverse_cons, List.append_assoc]
    rfl

theorem closes_renderText (tokens : List Token) (s : String) :
    Closes tokens (Json.renderText s) (.text (some s) :: tokens) := by
  have hopen : step ⟨tokens, .between⟩ '"' = some ⟨tokens, .text []⟩ := rfl
  have hclose : step ⟨tokens, .text (s.toList.map .char).reverse⟩ '"' =
      some ⟨.text (some s) :: tokens, .between⟩ := by
    change some (⟨.text ((joinUnits (s.toList.map .char).reverse []).map String.ofList) :: tokens,
      .between⟩ : Lexer) = _
    rw [← List.map_reverse, joinUnits_map_char, List.reverse_reverse, List.append_nil,
      Option.map_some, String.ofList_toList]
  rw [Closes, Json.renderText, List.cons_append, read_cons, hopen, Option.bind_some, read_append,
    read_flatMap_escapeChar, List.append_nil, Option.bind_some, read_cons, hclose]
  rfl

end Token

end AgentSession
