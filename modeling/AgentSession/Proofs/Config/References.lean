import AgentSession.Config.Variables
import AgentSession.Proofs.Text.Cut
import Mathlib.Data.List.Infix
/-!
# References in a text

A text begins with a reference if it begins with its spelling, which ends at the first closing brace
(`Variable.atFront?_eq_some_iff`). So a text is cut into references and other characters, from left
to right and without overlaps, in one way only. `Variable.Cut` says what the cut is, and
`Variable.cut` computes it; the references that are found in a text are those of its cut.
-/

namespace AgentSession.Variable

variable {v : Variable} {text rest : List Char}

/-! ## References -/

/-- The name or the path that a reference holds. -/
def word : Variable → List Char
  | env name => name
  | file path => path

/-- The word is not empty and ends at the first closing brace. -/
def Proper (v : Variable) : Prop := v.word ≠ [] ∧ '\x7d' ∉ v.word

instance (v : Variable) : Decidable v.Proper :=
  inferInstanceAs (Decidable (v.word ≠ [] ∧ '\x7d' ∉ v.word))

def opening : Variable → List Char
  | env _ => envOpening
  | file _ => fileOpening

theorem spelling_eq (v : Variable) : v.spelling = v.opening ++ v.word ++ ['\x7d'] := by
  rcases v with name | path
  · rfl
  · rfl

theorem brace_notMem_opening (v : Variable) : '\x7d' ∉ v.opening := by
  rcases v with name | path
  · exact of_decide_eq_true rfl
  · exact of_decide_eq_true rfl

theorem wordAt_eq_some_iff {word : List Char} :
    wordAt text = some word ↔ (word ≠ [] ∧ '\x7d' ∉ word) ∧ word ++ ['\x7d'] <+: text := by
  have hbegins : word ++ ['\x7d'] <+: text ↔ ∃ rest, text = word ++ '\x7d' :: rest := by
    constructor
    · rintro ⟨rest, rfl⟩
      exact ⟨rest, List.append_assoc word _ rest⟩
    · rintro ⟨rest, rfl⟩
      exact ⟨rest, List.append_assoc word _ rest⟩
  rw [hbegins, wordAt]
  rcases hsplit : Text.splitFirst '\x7d' text with _ | ⟨before, after⟩
  · constructor
    · nofun
    · rintro ⟨⟨-, hbrace⟩, rest, htext⟩
      rw [Text.splitFirst_eq_some_iff.2 ⟨htext, hbrace⟩] at hsplit
      cases hsplit
  · obtain ⟨rfl, hbrace⟩ := Text.splitFirst_eq_some_iff.1 hsplit
    constructor
    · intro h
      rcases before with _ | ⟨c, before⟩
      · cases h
      · obtain rfl := Option.some.inj h
        exact ⟨⟨List.cons_ne_nil _ _, hbrace⟩, after, rfl⟩
    · rintro ⟨⟨hne, hword⟩, rest, htext⟩
      rw [Text.splitFirst_eq_some_iff.2 ⟨htext, hword⟩] at hsplit
      obtain ⟨rfl, rfl⟩ := Prod.mk.inj (Option.some.inj hsplit)
      rcases word with _ | ⟨c, word⟩
      · exact absurd rfl hne
      · rfl

/-- Behind the opening of one kind, a reference of this kind is found where its spelling stands. -/
theorem map_wordAt_eq_some_iff {kind : List Char → Variable} {opening : List Char}
    (hspelling : ∀ word, (kind word).spelling = opening ++ word ++ ['\x7d'])
    (hword : ∀ word, (kind word).word = word) :
    (wordAt rest).map kind = some v ↔
      (∃ word, kind word = v) ∧ v.Proper ∧ v.spelling <+: opening ++ rest := by
  rw [Option.map_eq_some_iff]
  constructor
  · rintro ⟨word, hfound, rfl⟩
    obtain ⟨hproper, hbegins⟩ := wordAt_eq_some_iff.1 hfound
    rw [Proper, hword, hspelling, List.append_assoc]
    exact ⟨⟨word, rfl⟩, hproper, (List.prefix_append_right_inj opening).2 hbegins⟩
  · rintro ⟨⟨word, rfl⟩, hproper, hbegins⟩
    rw [Proper, hword] at hproper
    rw [hspelling, List.append_assoc] at hbegins
    have hfound := (List.prefix_append_right_inj opening).1 hbegins
    exact ⟨word, wordAt_eq_some_iff.2 ⟨hproper, hfound⟩, rfl⟩

/-- A text begins with a reference if it begins with its spelling. -/
theorem atFront?_eq_some_iff : atFront? text = some v ↔ v.Proper ∧ v.spelling <+: text := by
  rw [atFront?]
  split_ifs with henv hfile
  · obtain ⟨after, rfl⟩ := List.isPrefixOf_iff_prefix.1 henv
    rw [List.drop_left, map_wordAt_eq_some_iff (fun _ ↦ rfl) (fun _ ↦ rfl)]
    refine and_iff_right_of_imp fun ⟨_, hbegins⟩ ↦ ?_
    rcases v with name | path
    · exact ⟨name, rfl⟩
    · obtain ⟨_, hother⟩ := hbegins
      cases hother
  · obtain ⟨after, rfl⟩ := List.isPrefixOf_iff_prefix.1 hfile
    rw [List.drop_left, map_wordAt_eq_some_iff (fun _ ↦ rfl) (fun _ ↦ rfl)]
    refine and_iff_right_of_imp fun ⟨_, hbegins⟩ ↦ ?_
    rcases v with name | path
    · obtain ⟨_, hother⟩ := hbegins
      cases hother
    · exact ⟨path, rfl⟩
  · constructor
    · nofun
    · rintro ⟨-, hbegins⟩
      have hopening : v.opening <+: text := by
        rw [spelling_eq, List.append_assoc] at hbegins
        exact (List.prefix_append _ _).trans hbegins
      rcases v with name | path
      · exact absurd (List.isPrefixOf_iff_prefix.2 hopening) henv
      · exact absurd (List.isPrefixOf_iff_prefix.2 hopening) hfile

/-! ## Pieces of a text -/

inductive Piece where
  | char (c : Char)
  | ref (v : Variable)
deriving DecidableEq, Repr

def Piece.ref? : Piece → Option Variable
  | char _ => none
  | ref v => some v

/-- A text has some pieces: a reference wherever one begins outside the references before it. -/
inductive Cut : List Char → List Piece → Prop where
  | nil : Cut [] []
  | ref {rest : List Char} {pieces : List Piece} (v : Variable) (hv : v.Proper)
      (h : Cut rest pieces) : Cut (v.spelling ++ rest) (.ref v :: pieces)
  | char {rest : List Char} {pieces : List Piece} (c : Char)
      (hnone : ∀ v : Variable, v.Proper → ¬v.spelling <+: c :: rest)
      (h : Cut rest pieces) : Cut (c :: rest) (.char c :: pieces)

theorem length_spelling_pos (v : Variable) : 0 < v.spelling.length := by
  rw [spelling_eq, List.length_append]
  exact Nat.succ_pos _

/-- Every text can be cut. -/
theorem exists_cut (text : List Char) : ∃ pieces, Cut text pieces := by
  induction hlength : text.length using Nat.strong_induction_on generalizing text with
  | h n ih =>
    subst hlength
    rcases text with _ | ⟨c, rest⟩
    · exact ⟨[], .nil⟩
    · by_cases hfront : ∃ v : Variable, v.Proper ∧ v.spelling <+: c :: rest
      · obtain ⟨v, hv, after, htext⟩ := hfront
        have hshorter : after.length < (c :: rest).length := by
          rw [← htext, List.length_append]
          exact Nat.lt_add_of_pos_left v.length_spelling_pos
        obtain ⟨pieces, hpieces⟩ := ih after.length hshorter after rfl
        exact ⟨.ref v :: pieces, htext ▸ .ref v hv hpieces⟩
      · obtain ⟨pieces, hpieces⟩ := ih rest.length (Nat.lt_succ_self _) rest rfl
        refine ⟨.char c :: pieces, .char c ?_ hpieces⟩
        exact fun v hv hbegins ↦ hfront ⟨v, hv, hbegins⟩

/-- The references of some pieces, in their order. -/
def refs (pieces : List Piece) : List Variable := pieces.filterMap Piece.ref?

theorem mem_refs_of_mem {pieces : List Piece} (h : .ref v ∈ pieces) : v ∈ refs pieces :=
  List.mem_filterMap.2 ⟨.ref v, h, rfl⟩

/-- The pieces of a text behind the next `skip` characters, which belong to a reference found
already. -/
def cutFrom : ℕ → List Char → List Piece
  | _, [] => []
  | skip + 1, _ :: rest => cutFrom skip rest
  | 0, c :: rest =>
    match atFront? (c :: rest) with
    | some v => .ref v :: cutFrom (v.spelling.length - 1) rest
    | none => .char c :: cutFrom 0 rest

def cut (text : List Char) : List Piece := cutFrom 0 text

theorem cutFrom_eq (skip : ℕ) (text : List Char) : cutFrom skip text = cut (text.drop skip) := by
  induction text generalizing skip with
  | nil =>
    rw [List.drop_nil, cut, cutFrom, cutFrom]
  | cons c text ih =>
    rcases skip with _ | skip
    · rfl
    · exact ih skip

theorem allFrom_eq_refs (skip : ℕ) (text : List Char) :
    allFrom skip text = refs (cutFrom skip text) := by
  induction text generalizing skip with
  | nil =>
    rw [allFrom, cutFrom]
    rfl
  | cons c text ih =>
    rcases skip with _ | skip
    · rw [allFrom, cutFrom]
      rcases atFront? (c :: text) with _ | v
      · exact ih 0
      · exact congrArg (v :: ·) (ih _)
    · exact ih skip

/-- The references that are found are those of the pieces. -/
theorem all_eq_refs_cut (text : List Char) : all text = refs (cut text) := allFrom_eq_refs 0 text

theorem cut_spelling_append (hv : v.Proper) (rest : List Char) :
    cut (v.spelling ++ rest) = .ref v :: cut rest := by
  obtain ⟨c, tail, htail⟩ := List.exists_cons_of_length_pos v.length_spelling_pos
  have hfront : atFront? (c :: (tail ++ rest)) = some v := by
    refine atFront?_eq_some_iff.2 ⟨hv, ?_⟩
    rw [htail]
    exact List.prefix_append (c :: tail) rest
  rw [htail, List.cons_append, cut, cutFrom, hfront]
  change .ref v :: cutFrom (v.spelling.length - 1) (tail ++ rest) = _
  rw [cutFrom_eq, htail, List.length_cons, Nat.add_sub_cancel, List.drop_left]

theorem cut_cons {c : Char}
    (hnone : ∀ v : Variable, v.Proper → ¬v.spelling <+: c :: rest) :
    cut (c :: rest) = .char c :: cut rest := by
  have hfront : atFront? (c :: rest) = none := by
    rcases hfound : atFront? (c :: rest) with _ | v
    · rfl
    · obtain ⟨hv, hbegins⟩ := atFront?_eq_some_iff.1 hfound
      exact absurd hbegins (hnone v hv)
  rw [cut, cutFrom, hfront]
  rfl

variable {pieces : List Piece}

theorem cut_iff : Cut text pieces ↔ cut text = pieces := by
  have hunique : ∀ {text pieces}, Cut text pieces → cut text = pieces := by
    intro text pieces h
    induction h with
    | nil => rfl
    | ref v hv h ih => rw [cut_spelling_append hv, ih]
    | char c hnone h ih => rw [cut_cons hnone, ih]
  constructor
  · exact hunique
  · rintro rfl
    obtain ⟨pieces, hpieces⟩ := exists_cut text
    rwa [hunique hpieces]

theorem refs_map_char (text : List Char) : refs (text.map .char) = [] := by
  rw [refs, List.filterMap_map]
  exact List.filterMap_eq_nil_iff.2 fun _ _ ↦ rfl

/-- A text without spellings of references is cut into its characters. -/
theorem cut_eq_map_char (h : ∀ v : Variable, v.Proper → ¬v.spelling <:+: text) :
    cut text = text.map .char := by
  induction text with
  | nil => rfl
  | cons c text ih =>
    rw [cut_cons fun v hv hbegins ↦ h v hv hbegins.isInfix, ih fun v hv hinner ↦ h v hv ?_]
    · rfl
    · exact hinner.trans (List.suffix_cons c text).isInfix

theorem Cut.all_eq (h : Cut text pieces) : all text = refs pieces := by
  rw [all_eq_refs_cut, cut_iff.1 h]

theorem Cut.proper (h : Cut text pieces) (hv : v ∈ refs pieces) : v.Proper := by
  induction h with
  | nil => cases hv
  | ref u hu h ih =>
    rcases List.mem_cons.1 hv with rfl | hv
    · exact hu
    · exact ih hv
  | char c hnone h ih => exact ih hv

end AgentSession.Variable
