import AgentSession.Config.Load
import AgentSession.Proofs.Config.Comments
import AgentSession.Proofs.Json.Token
/-!
# Comments between tokens

Reading JSON and removing comments keep in step. As long as a text can be cut into tokens, the
machine that removes comments is in quotes exactly where a token in quotes is being read, and it
never meets a slash outside quotes (`Comments.next_stateOf`). So a JSON text is left as it is
(`Comments.strip_of_scan`). At a boundary of tokens the machine is outside quotes; a comment that
stands there leaves line feeds only, and these leave the tokens as they are.
-/

namespace AgentSession.Comments

open Token (Lexer)

variable {l l' : Lexer} {c : Char} {before rest commented : List Char}

/-! ## Keeping in step -/

/-- What a text leaves open of which the tokens have been read so far. -/
def stateOf (l : Lexer) : State :=
  match l.scan with
  | .between | .word _ | .number _ => .plain
  | .text _ | .digits _ _ _ => .quotes
  | .escape _ => .escape

theorem flush_stateOf (l : Lexer) : (stateOf l).flush = [] := by
  obtain ⟨tokens, scan⟩ := l
  rcases scan with _ | _ | _ | _ | _ | _
  all_goals rfl

/-- Outside quotes a token begins with no slash, and only a quote opens quotes. -/
theorem enter_eq_some {tokens : List Token} (h : Lexer.enter tokens c = some l') :
    c ≠ '/' ∧ stateOf l' = State.plain.next c := by
  unfold Lexer.enter at h
  split at h
  all_goals try (cases h; exact ⟨by decide, rfl⟩)
  rename_i hquote
  have hslash : c ≠ '/' := by
    rintro rfl
    cases h
  refine ⟨hslash, ?_⟩
  rw [State.next, if_neg hslash, if_neg hquote]
  split at h
  · cases h
    rfl
  · split at h
    · cases h
      rfl
    · cases h

/-- Neither a slash nor a quote is of some kind, so a character of this kind is written. -/
theorem plain_of_kind {kind : Char → Bool} (hslash : kind '/' = false) (hquote : kind '"' = false)
    (h : kind c = true) : State.plain.next c = .plain ∧ State.plain.emit c = [c] := by
  have hne : ∀ d, kind d = false → c ≠ d := by
    rintro d hd rfl
    exact Bool.false_ne_true (hd.symm.trans h)
  have hemit : State.plain.emit c = [c] := if_neg (hne '/' hslash)
  exact ⟨(if_neg (hne '/' hslash)).trans (if_neg (hne '"' hquote)), hemit⟩

theorem quotes_of_hexDigit? {d : Nat} (h : Token.hexDigit? c = some d) :
    State.quotes.next c = .quotes := by
  have hescape : c ≠ '\\' := by
    rintro rfl
    cases h
  have hquote : c ≠ '"' := by
    rintro rfl
    cases h
  exact (if_neg hescape).trans (if_neg hquote)

/-- A character that goes into the tokens is written, and both machines stay in step. -/
theorem next_stateOf (h : l.step c = some l') :
    (stateOf l).next c = stateOf l' ∧ (stateOf l).emit c = [c] := by
  have hentered : ∀ tokens, Lexer.enter tokens c = some l' →
      State.plain.next c = stateOf l' ∧ State.plain.emit c = [c] := by
    intro tokens henter
    obtain ⟨hslash, hstate⟩ := enter_eq_some henter
    exact ⟨hstate.symm, if_neg hslash⟩
  obtain ⟨tokens, scan⟩ := l
  rcases scan with _ | letters | chars | units | units | ⟨units, owed, code⟩
  · exact hentered tokens h
  · change (if Token.isLetter c then _ else _) = _ at h
    split at h
    · rename_i hletter
      cases h
      exact plain_of_kind rfl rfl hletter
    · obtain ⟨token, -, henter⟩ := Option.bind_eq_some_iff.1 h
      exact hentered (token :: tokens) henter
  · change (if Token.inLiteral c then _ else _) = _ at h
    split at h
    · rename_i hliteral
      cases h
      exact plain_of_kind rfl rfl hliteral
    · obtain ⟨token, -, henter⟩ := Option.bind_eq_some_iff.1 h
      exact hentered (token :: tokens) henter
  · change (if c = '"' then _ else _) = _ at h
    refine ⟨?_, rfl⟩
    change State.quotes.next c = _
    split_ifs at h with hquote hescape hcontrol
    · cases h
      rw [hquote]
      rfl
    · cases h
      rw [hescape]
      rfl
    · cases h
      exact (if_neg hescape).trans (if_neg hquote)
  · change (if c = 'u' then _ else _) = _ at h
    refine ⟨?_, rfl⟩
    split at h
    · cases h
      rfl
    · obtain ⟨e, -, rfl⟩ := Option.map_eq_some_iff.1 h
      rfl
  · obtain ⟨d, hdigit, rfl⟩ := Option.map_eq_some_iff.1 h
    refine ⟨(quotes_of_hexDigit? hdigit).trans ?_, rfl⟩
    rcases owed with _ | owed
    · rfl
    · rfl

/-- What can be cut into tokens is left as it is. -/
theorem finish_stateOf (h : (l.complete rest).isSome) : (stateOf l).finish rest = rest := by
  induction rest generalizing l with
  | nil => exact flush_stateOf l
  | cons c rest ih =>
    rw [Lexer.complete_cons] at h
    rcases hstep : l.step c with _ | l'
    · rw [hstep] at h
      cases h
    · rw [hstep] at h
      obtain ⟨hnext, hemit⟩ := next_stateOf hstep
      rw [State.finish_cons, hnext, hemit, ih h]
      rfl

/-- **A text that can be cut into tokens has no comments.** -/
theorem strip_of_scan {text : List Char} (h : (Token.scan text).isSome) : strip text = text :=
  (strip_eq text).trans (finish_stateOf (l := {}) h)

/-- At a boundary nothing is in quotes. -/
theorem stateOf_eq_plain (h : (l.complete rest).isSome)
    (hrest : ∀ c ∈ rest.head?, ¬l.Continues c) : stateOf l = .plain := by
  rw [← Lexer.complete_feed hrest, Lexer.complete_cons, Lexer.step_feed] at h
  obtain ⟨tokens, scan⟩ := l
  rcases scan with _ | _ | _ | _ | _ | _
  · rfl
  · rfl
  · rfl
  all_goals cases h

/-! ## Comments in a text -/

/-- The end of a text that follows `before`, with comments at boundaries of its tokens. -/
inductive Commented : List Char → List Char → List Char → Prop where
  | nil {before : List Char} : Commented before [] []
  | char {before rest commented : List Char} (c : Char)
      (h : Commented (before ++ [c]) rest commented) : Commented before (c :: rest) (c :: commented)
  | comment {before rest commented : List Char} (c : Comment) (hc : c.WellFormed)
      (hlast : c.isLast = false) (hboundary : Token.Boundary before rest)
      (h : Commented before rest commented) : Commented before rest (c.spelling ++ commented)

theorem Commented.text (text : List Char) (h : Commented (before ++ text) rest commented) :
    Commented before (text ++ rest) (text ++ commented) := by
  induction text generalizing before with
  | nil =>
    rw [List.append_nil] at h
    exact h
  | cons c text ih =>
    refine .char c (ih ?_)
    rw [List.append_assoc]
    exact h

/-- When the comments of a text are removed, only line feeds at boundaries are left of them. -/
theorem Commented.spaced (h : Commented before rest commented)
    (hl : Lexer.read {} before = some l) (hrest : (l.complete rest).isSome) :
    Token.Spaced before rest ((stateOf l).finish commented) := by
  induction h generalizing l with
  | nil =>
    rw [State.finish_nil, flush_stateOf]
    exact .nil
  | @char before rest commented c h ih =>
    rw [Lexer.complete_cons] at hrest
    rcases hstep : l.step c with _ | l'
    · rw [hstep] at hrest
      cases hrest
    · rw [hstep] at hrest
      obtain ⟨hnext, hemit⟩ := next_stateOf hstep
      rw [State.finish_cons, hnext, hemit]
      refine .char c (ih ?_ hrest)
      rw [Lexer.read_append, hl]
      exact (Lexer.read_cons l c []).trans (congrArg (Option.bind · _) hstep)
  | @comment before rest commented c hc hlast hboundary h ih =>
    have hplain : stateOf l = .plain := stateOf_eq_plain hrest (hboundary l hl)
    have hspaced := ih hl hrest
    rw [hplain] at hspaced ⊢
    rw [Comment.finish_spelling_append hc hlast]
    exact hspaced.feeds hboundary fun _ ↦ Comment.eq_of_mem_feeds

theorem scan_strip_commented {text : List Char} (h : Commented [] text commented)
    (htext : (Token.scan text).isSome) : Token.scan (strip commented) = Token.scan text := by
  have hspaced := h.spaced (l := {}) rfl htext
  rw [strip_eq]
  exact Token.scan_of_spaced hspaced

/-- **Comments are invisible.** A configuration text that is JSON may be given comments at any
boundaries of its tokens: the configuration is the same, or there is none for both texts. A JSON
text itself is left as it is when comments are removed. And for every text whatever, removing
comments twice is removing them once, and all line feeds stay. -/
theorem parse_commented :
    (∀ text commented w, Written.parse text = some w → Commented [] text commented →
      ∀ config, Config.parse (String.ofList commented) = .ok config ↔
        Config.parse (String.ofList text) = .ok config) ∧
      (∀ text w, Written.parse text = some w → strip text = text) ∧
      ∀ text, strip (strip text) = strip text ∧ (strip text).count '\n' = text.count '\n' := by
  have hscan : ∀ text w, Written.parse text = some w → (Token.scan text).isSome := by
    intro text w hparse
    obtain ⟨tokens, htokens, -⟩ := Option.bind_eq_some_iff.1 hparse
    exact Option.isSome_of_mem htokens
  refine ⟨?_, fun text w hparse ↦ strip_of_scan (hscan text w hparse),
    fun text ↦ ⟨strip_strip text, count_strip text⟩⟩
  intro text commented w hparse hcommented config
  have htext := hscan text w hparse
  have hread : Config.reader.run (strip commented) = Config.reader.run (strip text) := by
    rw [Reader.run, Reader.run, Written.parse, Written.parse, strip_of_scan htext,
      scan_strip_commented hcommented htext]
  rw [Config.parse, Config.parse, String.toList_ofList, String.toList_ofList, Config.read,
    Config.read, hread]

/-- A text in quotes that looks like comments, with a comment before it that has a quote, and two
comments that touch behind a number. It is read as the address in quotes and the time limit. -/
theorem parse_commented_quotes :
    let text := "\x7b\"url\":\"/*\\\"//\",\"timeout_ms\":12\x7d".toList
    let commented :=
      "\x7b\"url\"://\"\n\"/*\\\"//\",\"timeout_ms\":12/*/*//***/\x7d".toList
    (∃ w, Written.parse text = some w) ∧ Commented [] text commented ∧ strip text = text ∧
      (∀ config, Config.parse (String.ofList commented) = .ok config ↔
        Config.parse (String.ofList text) = .ok config) ∧
      Config.parse (String.ofList commented) =
        .ok { url := some "/*\"//", timeoutMs := some 12 } := by
  intro text commented
  let key := "\x7b\"url\":".toList
  let value := "\"/*\\\"//\",\"timeout_ms\":12".toList
  have hparse : (Written.parse text).isSome := by decide +kernel
  obtain ⟨w, hw⟩ := Option.isSome_iff_exists.1 hparse
  have hkey : Token.Boundary key (value ++ ['\x7d']) := by decide +kernel
  have hvalue : Token.Boundary (key ++ value) ['\x7d'] := by decide +kernel
  have hcommented : Commented [] text commented := by
    refine Commented.text key (.comment (.line ['"']) (by decide) rfl hkey ?_)
    refine Commented.text value (.comment (.block ['/']) (by decide) rfl hvalue ?_)
    exact .comment (.block ['*']) (by decide) rfl hvalue (Commented.text ['\x7d'] .nil)
  obtain ⟨hinvisible, hstrip, -⟩ := parse_commented
  have hsame := hinvisible text commented w hw hcommented
  have hread : Config.parse (String.ofList text) =
      .ok { url := some "/*\"//", timeoutMs := some 12 } := by decide +kernel
  exact ⟨⟨w, hw⟩, hcommented, hstrip text w hw, hsame, (hsame _).2 hread⟩

end AgentSession.Comments
