import AgentSession.Json.Token
import Mathlib.Data.Option.Basic
/-!
# Line feeds between tokens

A text may be cut into tokens anywhere but inside a token. A place in a text is a boundary if the
token that has been read so far does not go on with the next character (`Token.Boundary`). In
quotes everything goes on, except that no text in quotes holds a line feed.

A line feed at a boundary changes nothing: it ends a word or a literal that would have ended there
anyway (`Token.Lexer.complete_feed`). Since a line feed never belongs to a word or a literal, this
is so for any number of line feeds at any number of boundaries (`Token.scan_of_spaced`).
-/

namespace AgentSession.Token

namespace Lexer

variable {l l' : Lexer} {c : Char} {text rest : List Char}

/-- The next character belongs to the token that is being read. -/
def Continues (l : Lexer) (c : Char) : Prop :=
  match l.scan with
  | .between => False
  | .word _ => isLetter c = true
  | .number _ => inLiteral c = true
  | .text _ | .escape _ | .digits _ _ _ => c ≠ '\n'

instance (l : Lexer) (c : Char) : Decidable (l.Continues c) :=
  match l with
  | ⟨_, .between⟩ => .isFalse id
  | ⟨_, .word _⟩ => inferInstanceAs (Decidable (isLetter c = true))
  | ⟨_, .number _⟩ => inferInstanceAs (Decidable (inLiteral c = true))
  | ⟨_, .text _⟩ | ⟨_, .escape _⟩ | ⟨_, .digits _ _ _⟩ => inferInstanceAs (Decidable (c ≠ '\n'))

def read (l : Lexer) (text : List Char) : Option Lexer := text.foldlM step l

/-- The tokens of a text of which the rest is still to be read. -/
def complete (l : Lexer) (rest : List Char) : Option (List Token) := (l.read rest).bind finish

theorem read_cons (l : Lexer) (c : Char) (text : List Char) :
    l.read (c :: text) = (l.step c).bind fun l' ↦ l'.read text := rfl

theorem read_append (l : Lexer) (text rest : List Char) :
    l.read (text ++ rest) = (l.read text).bind fun l' ↦ l'.read rest := by
  rw [read, List.foldlM_append]
  rfl

theorem complete_cons (l : Lexer) (c : Char) (rest : List Char) :
    l.complete (c :: rest) = (l.step c).bind fun l' ↦ l'.complete rest := by
  rw [complete, read_cons, Option.bind_assoc]
  rfl

/-! ## A line feed -/

theorem not_continues_feed (l : Lexer) : ¬l.Continues '\n' := by
  obtain ⟨tokens, scan⟩ := l
  rcases scan with _ | _ | _ | _ | _ | _
  · exact id
  · exact Bool.false_ne_true
  · exact Bool.false_ne_true
  all_goals exact not_not.2 rfl

/-- The machine when the token that it reads has come to its end. -/
def closed (l : Lexer) : Option Lexer :=
  match l.scan with
  | .between => some l
  | .word letters => (ofWord letters.reverse).map fun token ↦ ⟨token :: l.tokens, .between⟩
  | .number chars => (ofLiteral chars.reverse).map fun token ↦ ⟨token :: l.tokens, .between⟩
  | .text _ | .escape _ | .digits _ _ _ => none

theorem step_feed (l : Lexer) : l.step '\n' = l.closed := by
  obtain ⟨tokens, scan⟩ := l
  rcases scan with _ | letters | chars | _ | _ | _
  · rfl
  · change (ofWord letters.reverse).bind _ = (ofWord letters.reverse).map _
    rcases ofWord letters.reverse with _ | _ <;> rfl
  · change (ofLiteral chars.reverse).bind _ = (ofLiteral chars.reverse).map _
    rcases ofLiteral chars.reverse with _ | _ <;> rfl
  all_goals rfl

/-- A token ends with the text. -/
theorem bind_closed_finish (l : Lexer) : l.closed.bind finish = l.finish := by
  obtain ⟨tokens, scan⟩ := l
  rcases scan with _ | letters | chars | _ | _ | _
  · rfl
  · change ((ofWord letters.reverse).map _).bind finish = (ofWord letters.reverse).map _
    rcases ofWord letters.reverse with _ | _ <;> rfl
  · change ((ofLiteral chars.reverse).map _).bind finish = (ofLiteral chars.reverse).map _
    rcases ofLiteral chars.reverse with _ | _ <;> rfl
  all_goals rfl

/-- A token ends with the first character that does not belong to it. -/
theorem bind_closed_step (h : ¬l.Continues c) : l.closed.bind (fun l' ↦ l'.step c) = l.step c := by
  obtain ⟨tokens, scan⟩ := l
  rcases scan with _ | letters | chars | _ | _ | _
  · rfl
  · have hends : ¬isLetter c = true := h
    change Option.bind ((ofWord letters.reverse).map _) _ = if isLetter c then _ else _
    rw [if_neg hends]
    rcases ofWord letters.reverse with _ | _ <;> rfl
  · have hends : ¬inLiteral c = true := h
    change Option.bind ((ofLiteral chars.reverse).map _) _ = if inLiteral c then _ else _
    rw [if_neg hends]
    rcases ofLiteral chars.reverse with _ | _ <;> rfl
  all_goals
    obtain rfl : c = '\n' := not_not.1 h
    rfl

/-- A line feed changes nothing where the next character does not belong to the token that is being
read. -/
theorem complete_feed (h : ∀ c ∈ rest.head?, ¬l.Continues c) :
    l.complete ('\n' :: rest) = l.complete rest := by
  rw [complete_cons, step_feed]
  rcases rest with _ | ⟨c, rest⟩
  · exact bind_closed_finish l
  · rw [complete_cons, ← bind_closed_step (h c rfl), Option.bind_assoc]
    exact congrArg _ (funext fun l' ↦ complete_cons l' c rest)

end Lexer

/-! ## Boundaries -/

/-- The place between two parts of a text is in no token. -/
def Boundary (before after : List Char) : Prop :=
  ∀ l, Lexer.read {} before = some l → ∀ c ∈ after.head?, ¬l.Continues c

theorem boundary_nil (before : List Char) : Boundary before [] := nofun

theorem boundary_cons_iff {before rest : List Char} {c : Char} {l : Lexer}
    (hl : Lexer.read {} before = some l) : Boundary before (c :: rest) ↔ ¬l.Continues c := by
  constructor
  · intro h
    exact h l hl c rfl
  · intro h l' hl' d hd
    obtain rfl := Option.some.inj (hl.symm.trans hl')
    obtain rfl := Option.some.inj hd
    exact h

instance (before : List Char) : (after : List Char) → Decidable (Boundary before after)
  | [] => .isTrue (boundary_nil before)
  | c :: _ =>
    match hread : Lexer.read {} before with
    | none => .isTrue fun _ hl ↦ nomatch hread.symm.trans hl
    | some l => decidable_of_iff (¬l.Continues c) (boundary_cons_iff hread).symm

/-- The end of a text that follows `before`, with line feeds at boundaries. -/
inductive Spaced : List Char → List Char → List Char → Prop where
  | nil {before : List Char} : Spaced before [] []
  | char {before rest spaced : List Char} (c : Char) (h : Spaced (before ++ [c]) rest spaced) :
      Spaced before (c :: rest) (c :: spaced)
  | feed {before rest spaced : List Char} (hboundary : Boundary before rest)
      (h : Spaced before rest spaced) : Spaced before rest ('\n' :: spaced)

variable {before rest spaced : List Char}

theorem Spaced.refl (before rest : List Char) : Spaced before rest rest := by
  induction rest generalizing before with
  | nil => exact .nil
  | cons c rest ih => exact .char c (ih _)

theorem Spaced.append (text : List Char) (h : Spaced (before ++ text) rest spaced) :
    Spaced before (text ++ rest) (text ++ spaced) := by
  induction text generalizing before with
  | nil =>
    rw [List.append_nil] at h
    exact h
  | cons c text ih =>
    refine .char c (ih ?_)
    rw [List.append_assoc]
    exact h

theorem Spaced.feeds {feeds : List Char} (hboundary : Boundary before rest)
    (h : Spaced before rest spaced) (hfeeds : ∀ c ∈ feeds, c = '\n') :
    Spaced before rest (feeds ++ spaced) := by
  induction feeds with
  | nil => exact h
  | cons c feeds ih =>
    obtain ⟨rfl, hrest⟩ := List.forall_mem_cons.1 hfeeds
    exact .feed hboundary (ih hrest)

/-- The first character behind some line feeds is that of the text without them. -/
theorem Spaced.head? (h : Spaced before rest spaced) :
    ∀ c ∈ spaced.head?, c = '\n' ∨ c ∈ rest.head? := by
  rcases h with _ | ⟨c, h⟩ | ⟨hboundary, h⟩
  · exact nofun
  · exact fun _ hc ↦ .inr hc
  · exact fun _ hc ↦ .inl (Option.mem_some.1 hc).symm

theorem Spaced.complete_eq (h : Spaced before rest spaced) {l : Lexer}
    (hl : Lexer.read {} before = some l) : l.complete spaced = l.complete rest := by
  induction h generalizing l with
  | nil => rfl
  | @char before rest spaced c h ih =>
    rw [Lexer.complete_cons, Lexer.complete_cons]
    rcases hstep : l.step c with _ | l'
    · rfl
    · refine ih ?_
      rw [Lexer.read_append, hl]
      exact (Lexer.read_cons l c []).trans (congrArg (Option.bind · _) hstep)
  | @feed before rest spaced hboundary h ih =>
    rw [Lexer.complete_feed, ih hl]
    intro c hc
    rcases h.head? c hc with rfl | hrest
    · exact l.not_continues_feed
    · exact hboundary l hl c hrest

/-- **Line feeds at boundaries leave the tokens of a text as they are.** -/
theorem scan_of_spaced (h : Spaced [] rest spaced) : scan spaced = scan rest :=
  h.complete_eq (l := {}) rfl

end AgentSession.Token
