import AgentSession.Text.Cut
import Mathlib.Data.List.Infix
/-!
# Where a word is replaced

Replacing a word in a text comes to replacing it in parts of the text, as long as no occurrence of
the word lies across the places where the text is parted. A text is given here as a list of blocks,
some of which are open to replacement; `Text.Confined` says that the word occurs inside open blocks
only. Then the other blocks stay as they are (`Text.replaceAll_join`).
-/

namespace AgentSession.Text

variable {word value text rest : List Char} {c : Char}

/-! ## One occurrence at a time -/

theorem replaceFrom_eq (word value : List Char) (skip : ℕ) (text : List Char) :
    replaceFrom word value skip text = replaceAll word value (text.drop skip) := by
  induction text generalizing skip with
  | nil =>
    rw [List.drop_nil, replaceAll, replaceFrom, replaceFrom]
  | cons c text ih =>
    rcases skip with _ | skip
    · rfl
    · exact ih skip

theorem replaceAll_cons (h : ¬word <+: c :: rest) (value : List Char) :
    replaceAll word value (c :: rest) = c :: replaceAll word value rest := by
  rw [replaceAll, replaceFrom, if_neg (mt List.isPrefixOf_iff_prefix.1 h)]
  rfl

theorem replaceAll_word_append (hword : word ≠ []) (value rest : List Char) :
    replaceAll word value (word ++ rest) = value ++ replaceAll word value rest := by
  obtain ⟨c, tail, rfl⟩ := List.exists_cons_of_ne_nil hword
  have hbegins : (c :: tail).isPrefixOf (c :: (tail ++ rest)) = true :=
    List.isPrefixOf_iff_prefix.2 (List.prefix_append (c :: tail) rest)
  rw [List.cons_append, replaceAll, replaceFrom, if_pos hbegins, replaceFrom_eq, List.length_cons,
    Nat.add_sub_cancel, List.drop_left]

/-- A word of one character is replaced character by character. -/
theorem replaceAll_singleton (c : Char) (value text : List Char) :
    replaceAll [c] value text = text.flatMap fun d ↦ if d = c then value else [d] := by
  induction text with
  | nil => rfl
  | cons d text ih =>
    rw [List.flatMap_cons]
    by_cases hd : d = c
    · rw [if_pos hd, hd, ← ih]
      exact replaceAll_word_append (List.cons_ne_nil c []) value text
    · have hword : ¬[c] <+: d :: text := fun h ↦ hd (List.cons_prefix_cons.1 h).1.symm
      rw [if_neg hd, replaceAll_cons hword, ih, List.singleton_append]

/-! ## Parts of a text -/

/-- No occurrence of a word begins in a text that is followed by `rest`. -/
def Avoids (word : List Char) : List Char → List Char → Prop
  | [], _ => True
  | c :: text, rest => ¬word <+: c :: (text ++ rest) ∧ Avoids word text rest

/-- An occurrence of a word that begins in a text ends in it, when it is followed by `rest`. -/
def Within (word : List Char) : List Char → List Char → Prop
  | [], _ => True
  | c :: text, rest => (word <+: c :: (text ++ rest) → word <+: c :: text) ∧ Within word text rest

instance Avoids.decidable (word : List Char) : (text rest : List Char) →
    Decidable (Avoids word text rest)
  | [], _ => .isTrue trivial
  | c :: text, rest =>
    have := Avoids.decidable word text rest
    inferInstanceAs (Decidable (¬word <+: c :: (text ++ rest) ∧ Avoids word text rest))

instance Within.decidable (word : List Char) : (text rest : List Char) →
    Decidable (Within word text rest)
  | [], _ => .isTrue trivial
  | c :: text, rest =>
    have := Within.decidable word text rest
    inferInstanceAs
      (Decidable ((word <+: c :: (text ++ rest) → word <+: c :: text) ∧ Within word text rest))

theorem replaceAll_append_of_avoids (h : Avoids word text rest) (value : List Char) :
    replaceAll word value (text ++ rest) = text ++ replaceAll word value rest := by
  induction text with
  | nil => rfl
  | cons c text ih =>
    obtain ⟨hhead, htail⟩ := h
    rw [List.cons_append, replaceAll_cons hhead, ih htail]
    rfl

theorem replaceFrom_append_of_within (h : Within word text rest) (value : List Char) {skip : ℕ}
    (hskip : skip ≤ text.length) :
    replaceFrom word value skip (text ++ rest) =
      replaceFrom word value skip text ++ replaceAll word value rest := by
  induction text generalizing skip with
  | nil =>
    obtain rfl := Nat.le_zero.1 hskip
    rfl
  | cons c text ih =>
    obtain ⟨hhead, htail⟩ := h
    rcases skip with _ | skip
    · rw [List.cons_append, replaceFrom, replaceFrom]
      by_cases hword : word <+: c :: (text ++ rest)
      · have hlength : word.length - 1 ≤ text.length :=
          Nat.sub_le_of_le_add (hhead hword).length_le
        rw [if_pos (List.isPrefixOf_iff_prefix.2 hword),
          if_pos (List.isPrefixOf_iff_prefix.2 (hhead hword)), ih htail hlength,
          List.append_assoc]
      · have hshort : ¬word <+: c :: text :=
          fun hbegins ↦ hword (hbegins.trans (List.prefix_append (c :: text) rest))
        rw [if_neg (mt List.isPrefixOf_iff_prefix.1 hword),
          if_neg (mt List.isPrefixOf_iff_prefix.1 hshort), ih htail (Nat.zero_le _)]
        rfl
    · exact ih htail (Nat.le_of_succ_le_succ hskip)

/-- A word that does not lie across the end of a text is replaced in the text and behind it. -/
theorem replaceAll_append_of_within (h : Within word text rest) (value : List Char) :
    replaceAll word value (text ++ rest) =
      replaceAll word value text ++ replaceAll word value rest :=
  replaceFrom_append_of_within h value (Nat.zero_le _)

/-! ## Blocks -/

/-- A part of a text. -/
structure Block where
  /-- Words are replaced in it. -/
  opened : Bool
  chars : List Char
deriving DecidableEq, Repr

def Block.replace (word value : List Char) (b : Block) : Block :=
  if b.opened then { b with chars := replaceAll word value b.chars } else b

/-- The text that has some parts. -/
def join (blocks : List Block) : List Char := blocks.flatMap Block.chars

/-- A word occurs in open blocks only, and in none of them across its end. -/
def Confined (word : List Char) : List Block → Prop
  | [] => True
  | b :: blocks =>
    (if b.opened then Within word b.chars (join blocks) else Avoids word b.chars (join blocks)) ∧
      Confined word blocks

instance Confined.decidable (word : List Char) : (blocks : List Block) →
    Decidable (Confined word blocks)
  | [] => .isTrue trivial
  | b :: blocks =>
    have := Confined.decidable word blocks
    inferInstanceAs (Decidable ((if b.opened then Within word b.chars (join blocks)
      else Avoids word b.chars (join blocks)) ∧ Confined word blocks))

theorem join_cons (b : Block) (blocks : List Block) : join (b :: blocks) = b.chars ++ join blocks :=
  List.flatMap_cons

/-- **A word that is confined to open blocks is replaced in these.** -/
theorem replaceAll_join {blocks : List Block} (h : Confined word blocks) (value : List Char) :
    replaceAll word value (join blocks) = join (blocks.map (Block.replace word value)) := by
  induction blocks with
  | nil => rfl
  | cons b blocks ih =>
    obtain ⟨hb, hblocks⟩ := h
    rw [List.map_cons, join_cons, join_cons, ← ih hblocks, Block.replace]
    by_cases hopened : b.opened
    · rw [if_pos hopened] at hb ⊢
      exact replaceAll_append_of_within hb value
    · rw [if_neg hopened] at hb ⊢
      exact replaceAll_append_of_avoids hb value

end AgentSession.Text
