import AgentSession.Json.Printer
/-!
# The compact text is one line

The controls below U+0020 are escaped wherever a text is printed, and nothing else that is printed
is below the space. So the compact text of a document is a single line (`Json.noControls_render`),
and never an empty one (`Json.render_ne_nil`).
-/

namespace AgentSession

/-- A text without the controls below U+0020. -/
def NoControls (text : List Char) : Prop := ∀ c ∈ text, ' ' ≤ c

theorem noControls_nil : NoControls [] := fun _ h ↦ absurd h List.not_mem_nil

@[simp] theorem noControls_cons {c : Char} {text : List Char} :
    NoControls (c :: text) ↔ ' ' ≤ c ∧ NoControls text := List.forall_mem_cons

@[simp] theorem noControls_append {text more : List Char} :
    NoControls (text ++ more) ↔ NoControls text ∧ NoControls more := List.forall_mem_append

/-- A line feed or a carriage return is a control. -/
theorem NoControls.not_mem {text : List Char} (h : NoControls text) {c : Char} (hc : c < ' ') :
    c ∉ text := fun hmem ↦ absurd (h c hmem) (Char.not_le.2 hc)

/-! ## Numbers -/

theorem noControls_toDigits (n : Nat) : NoControls (Nat.toDigits 10 n) := by
  intro c hc
  have hdigit : c.isDigit = true := Nat.isDigit_of_mem_toDigits (by decide) (by decide) hc
  have hzero : '0' ≤ c := (Bool.and_eq_true_iff.1 hdigit).1 |> of_decide_eq_true
  exact Char.le_trans (by decide) hzero

namespace DoubleLayout

theorem noControls_zeros (n : Nat) : NoControls (zeros n) := by
  intro c hc
  rw [List.eq_of_mem_replicate hc]
  decide

theorem noControls_plain {digits : List Char} (h : NoControls digits) (top : Int) :
    NoControls (plain digits top) := by
  unfold plain
  split
  · exact noControls_append.2 ⟨by simp [noControls_zeros], h⟩
  · have htake : NoControls (digits.take (top.toNat + 1)) :=
      fun c hc ↦ h c (List.mem_of_mem_take hc)
    have hdrop : NoControls (digits.drop (top.toNat + 1)) :=
      fun c hc ↦ h c (List.mem_of_mem_drop hc)
    dsimp only
    split
    · simp [h, noControls_zeros, noControls_nil]
    · simp [htake, hdrop]

theorem noControls_scientific {digits : List Char} (h : NoControls digits) (top : Int) :
    NoControls (scientific digits top) := by
  have hsign : ' ' ≤ (if top < 0 then '-' else '+') := by split <;> decide
  rcases digits with _ | ⟨d, _ | ⟨next, more⟩⟩
  · simp [scientific, hsign, noControls_toDigits]
  · simp_all [scientific, noControls_toDigits]
  · simp_all [scientific, noControls_toDigits]

theorem noControls_render (layout : DoubleLayout) (d : Binary64) :
    NoControls (layout.render d) := by
  unfold render
  refine noControls_append.2 ⟨?_, ?_⟩
  · split
    · simp [noControls_nil]
    · exact noControls_nil
  · split
    · exact noControls_plain (noControls_toDigits _) _
    · exact noControls_scientific (noControls_toDigits _) _

theorem plain_ne_nil (digits : List Char) (top : Int) : plain digits top ≠ [] := by
  unfold plain
  split
  · simp
  · dsimp only
    split <;> simp

theorem scientific_ne_nil (digits : List Char) (top : Int) : scientific digits top ≠ [] := by
  simp [scientific]

theorem render_ne_nil (layout : DoubleLayout) (d : Binary64) : layout.render d ≠ [] := by
  unfold render
  refine List.append_ne_nil_of_right_ne_nil _ ?_
  split
  · exact plain_ne_nil _ _
  · exact scientific_ne_nil _ _

end DoubleLayout

namespace Json

theorem noControls_renderNumber (n : Number) : NoControls (renderNumber n) := by
  cases n with
  | int i =>
    rw [renderNumber, renderInt]
    split
    · simp [noControls_toDigits]
    · exact noControls_toDigits _
  | double d => exact DoubleLayout.noControls_render doubleLayout d

theorem renderNumber_ne_nil (n : Number) : renderNumber n ≠ [] := by
  cases n with
  | int i =>
    rw [renderNumber, renderInt]
    split
    · exact List.cons_ne_nil _ _
    · exact Nat.toDigits_ne_nil
  | double d => exact DoubleLayout.render_ne_nil doubleLayout d

/-! ## Texts -/

theorem le_digitChar : ∀ n < 16, ' ' ≤ Nat.digitChar n := by decide

theorem noControls_escapeChar (c : Char) : NoControls (escapeChar c) := by
  unfold escapeChar
  split
  case h_8 =>
    split
    · rename_i hc
      -- the number of a control has two digits
      have hsmall : c.toNat < 32 := hc
      simp [noControls_nil, le_digitChar (c.toNat / 16) (by omega),
        le_digitChar (c.toNat % 16) (by omega)]
    · rename_i hc
      simpa [noControls_nil] using hc
  all_goals simp [noControls_nil]

theorem noControls_renderText (s : String) : NoControls (renderText s) := by
  have hbody : NoControls (s.toList.flatMap escapeChar) :=
    List.forall_mem_flatMap.2 fun c _ ↦ noControls_escapeChar c
  simp [renderText, hbody, noControls_nil]

/-! ## Documents -/

mutual

/-- **One line.** The compact text of a document has no controls, and so no line breaks. -/
theorem noControls_render (doc : Json) : NoControls doc.render := by
  cases doc with
  | null => simp [render, noControls_nil]
  | bool b => cases b <;> simp [render, noControls_nil]
  | num n => exact noControls_renderNumber n
  | str s => exact noControls_renderText s
  | arr items => simp [render, noControls_nil, noControls_renderItems items]
  | obj members => simp [render, noControls_nil, noControls_renderMembers members]

theorem noControls_renderItems (items : List Json) : NoControls (renderItems items) := by
  rcases items with _ | ⟨item, _ | ⟨next, more⟩⟩
  · exact noControls_nil
  · exact noControls_render item
  · simp [renderItems, noControls_render item, noControls_renderItems (next :: more)]

theorem noControls_renderMembers (members : List (String × Json)) :
    NoControls (renderMembers members) := by
  rcases members with _ | ⟨⟨key, value⟩, _ | ⟨next, more⟩⟩
  · exact noControls_nil
  · simp [renderMembers, noControls_renderText key, noControls_render value]
  · simp [renderMembers, noControls_renderText key, noControls_render value,
      noControls_renderMembers (next :: more)]

end

theorem render_ne_nil (doc : Json) : doc.render ≠ [] := by
  cases doc with
  | bool b => cases b <;> simp [render]
  | num n => exact renderNumber_ne_nil n
  | str s => simp [render, renderText]
  | _ => simp [render]

theorem noControls_compact (doc : Json) : NoControls doc.compact.toList := by
  rw [compact, String.toList_ofList]
  exact noControls_render doc

theorem compact_ne_empty (doc : Json) : doc.compact ≠ "" := by
  rw [compact, Ne, String.ofList_eq_empty_iff]
  exact render_ne_nil doc

end Json

end AgentSession
