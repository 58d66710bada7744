import AgentSession.Proofs.Config.References
import AgentSession.Proofs.Text.Replace
/-!
# Simultaneous substitution

To substitute simultaneously is to cut a text into references and other characters, and to put the
value of every reference in its place.

The references are replaced one after another, each by a search in the text so far. Between two
turns the text so far shows values for the references that had their turn and spellings for the
others (`Variable.shown`). A turn comes to a simultaneous replacement if the spelling is found
nowhere but in places of the reference that are still to be filled (`Variable.InPlace`), and if this
is so in every turn, the substitution is simultaneous (`Variable.substituteAll_eq`). The condition
is about texts that were substituted simultaneously, and it cannot be spared: a spelling is replaced
wherever it stands (`Variable.replaceAll_spelling`), also where it came out of a value.
-/

namespace AgentSession.Variable

variable {v : Variable} {text rest : List Char} {pieces : List Piece}

/-! ## Values -/

/-- The value of a reference in a configuration file: that of the environment variable, or the text
of the file, without blanks at its ends. -/
def HasValue (host : Host) (configPath : String) : Variable → List Char → Prop
  | env name, value => ∃ s, host.env (String.ofList name) = some s ∧ value = s.toList
  | file path, value =>
    ∃ text, host.text (filePath configPath path) = some text ∧ value = Text.trim text

theorem resolve_eq_ok_iff {host : Host} {configPath : String} {value : List Char} :
    resolve host configPath v = .ok value ↔ HasValue host configPath v value := by
  rcases v with name | path
  · rw [resolve, HasValue]
    rcases host.env (String.ofList name) with _ | s
    · simp
    · simp [eq_comm]
  · rw [resolve, HasValue]
    rcases host.text (filePath configPath path) with _ | text
    · simp
    · simp [eq_comm]

/-- The value of a reference that has one. -/
def found (host : Host) (configPath : String) (v : Variable) : List Char :=
  match resolve host configPath v with
  | .ok value => value
  | .error _ => []

theorem hasValue_found {host : Host} {configPath : String}
    (h : ∃ value, HasValue host configPath v value) :
    HasValue host configPath v (found host configPath v) := by
  obtain ⟨value, hvalue⟩ := h
  have hresolve := resolve_eq_ok_iff.2 hvalue
  rw [found, hresolve]
  exact hvalue

variable {values : Variable → List Char} {done : List Variable}

/-- The text in which every reference is replaced by its value at once. -/
def replaced (values : Variable → List Char) (pieces : List Piece) : List Char :=
  pieces.flatMap fun
    | .char c => [c]
    | .ref v => values v

theorem replaced_append (values : Variable → List Char) (pieces rest : List Piece) :
    replaced values (pieces ++ rest) = replaced values pieces ++ replaced values rest :=
  List.flatMap_append

theorem replaced_map_char (values : Variable → List Char) (text : List Char) :
    replaced values (text.map .char) = text :=
  (List.flatMap_map ..).trans (List.flatMap_singleton' _)

theorem replaced_congr {values' : Variable → List Char}
    (h : ∀ v ∈ refs pieces, values v = values' v) :
    replaced values pieces = replaced values' pieces := by
  refine List.flatMap_congr fun p hp ↦ ?_
  rcases p with c | v
  · rfl
  · exact h v (mem_refs_of_mem hp)

/-- What a piece has become when some references are replaced. -/
def Piece.shown (values : Variable → List Char) (done : List Variable) : Piece → List Char
  | char c => [c]
  | ref v => if v ∈ done then values v else v.spelling

def shown (values : Variable → List Char) (done : List Variable) (pieces : List Piece) :
    List Char :=
  pieces.flatMap (Piece.shown values done)

theorem Cut.shown_nil (h : Cut text pieces) (values : Variable → List Char) :
    shown values [] pieces = text := by
  induction h with
  | nil => rfl
  | ref v hv h ih => exact congrArg (v.spelling ++ ·) ih
  | char c hnone h ih => exact congrArg (c :: ·) ih

theorem shown_eq_replaced (h : ∀ v ∈ refs pieces, v ∈ done) :
    shown values done pieces = replaced values pieces := by
  refine List.flatMap_congr fun p hp ↦ ?_
  rcases p with c | v
  · rfl
  · exact if_pos (h v (mem_refs_of_mem hp))

/-! ## Turns -/

/-- A piece as a block, which is open if it is a place of `v` that is still to be filled. -/
def Piece.block (values : Variable → List Char) (done : List Variable) (v : Variable) (p : Piece) :
    Text.Block :=
  ⟨p = .ref v ∧ v ∉ done, p.shown values done⟩

/-- When some references are replaced, the spelling of `v` is found nowhere but in places of `v`
that are still to be filled. -/
def InPlace (values : Variable → List Char) (done : List Variable) (v : Variable)
    (pieces : List Piece) : Prop :=
  Text.Confined v.spelling (pieces.map (Piece.block values done v))

/-- So it is in each of some turns. -/
def Undisturbed (values : Variable → List Char) (pieces : List Piece) :
    List Variable → List Variable → Prop
  | _, [] => True
  | done, v :: turns =>
    InPlace values done v pieces ∧ Undisturbed values pieces (v :: done) turns

instance Undisturbed.decidable (values : Variable → List Char) (pieces : List Piece) :
    (done turns : List Variable) → Decidable (Undisturbed values pieces done turns)
  | _, [] => .isTrue trivial
  | done, v :: turns =>
    have := Undisturbed.decidable values pieces (v :: done) turns
    have : Decidable (InPlace values done v pieces) := Text.Confined.decidable _ _
    inferInstanceAs (Decidable (InPlace values done v pieces ∧ _))

theorem join_map_block (values : Variable → List Char) (done : List Variable) (v : Variable)
    (pieces : List Piece) :
    Text.join (pieces.map (Piece.block values done v)) = shown values done pieces :=
  List.flatMap_map ..

theorem replace_block (values : Variable → List Char) (done : List Variable) (v : Variable)
    (p : Piece) :
    ((p.block values done v).replace v.spelling (values v)).chars = p.shown values (v :: done) := by
  rw [Text.Block.replace, Piece.block]
  by_cases hopen : p = .ref v ∧ v ∉ done
  · obtain ⟨rfl, hv⟩ := hopen
    have hself : Text.replaceAll v.spelling (values v) v.spelling = values v := by
      have hword := Text.replaceAll_word_append (List.ne_nil_of_length_pos v.length_spelling_pos)
        (values v) []
      rw [List.append_nil] at hword
      exact hword.trans (List.append_nil _)
    simp only [hv, not_false_eq_true, and_self, decide_true, if_true, Piece.shown, if_false,
      List.mem_cons, true_or, hself]
  · rcases p with c | u
    · simp only [reduceCtorEq, false_and, decide_false, Bool.false_eq_true, if_false, Piece.shown]
    · have hdone : u ∈ v :: done ↔ u ∈ done := by
        constructor
        · intro h
          rcases List.mem_cons.1 h with rfl | h
          · exact not_not.1 fun hnot ↦ hopen ⟨rfl, hnot⟩
          · exact h
        · exact List.mem_cons_of_mem v
      simp only [hopen, decide_false, Bool.false_eq_true, if_false, Piece.shown, hdone]

/-- A turn in which a reference is found in place fills its places. -/
theorem replaceAll_shown (h : InPlace values done v pieces) :
    Text.replaceAll v.spelling (values v) (shown values done pieces) =
      shown values (v :: done) pieces := by
  rw [← join_map_block values done v, Text.replaceAll_join h, List.map_map]
  refine (List.flatMap_map ..).trans (List.flatMap_congr fun p _ ↦ ?_)
  exact replace_block values done v p

/-- **Undisturbed turns come to a simultaneous substitution.** -/
theorem substituteAll_eq {value : Variable → Except ConfigError (List Char)}
    {turns : List Variable} (hvalues : ∀ v ∈ turns, value v = .ok (values v))
    (h : Undisturbed values pieces done turns) :
    substituteAll value turns (shown values done pieces) =
      .ok (shown values (turns.reverse ++ done) pieces) := by
  induction turns generalizing done with
  | nil => rfl
  | cons v turns ih =>
    obtain ⟨hplace, hturns⟩ := h
    obtain ⟨hv, hrest⟩ := List.forall_mem_cons.1 hvalues
    rw [substituteAll, hv]
    change substituteAll value turns (Text.replaceAll v.spelling (values v) _) = _
    rw [replaceAll_shown hplace, ih hrest hturns, List.reverse_cons, List.append_assoc]
    rfl

theorem exists_substituteAll {value : Variable → Except ConfigError (List Char)}
    {turns : List Variable} (hvalues : ∀ v ∈ turns, value v = .ok (values v)) (text : List Char) :
    ∃ result, substituteAll value turns text = .ok result := by
  induction turns generalizing text with
  | nil => exact ⟨text, rfl⟩
  | cons v turns ih =>
    obtain ⟨hv, hrest⟩ := List.forall_mem_cons.1 hvalues
    rw [substituteAll, hv]
    exact ih hrest _

theorem substituteAll_cons_eq_ok_iff {value : Variable → Except ConfigError (List Char)}
    {turns : List Variable} {text result : List Char} :
    substituteAll value (v :: turns) text = .ok result ↔ ∃ replacement, value v = .ok replacement ∧
      substituteAll value turns (Text.replaceAll v.spelling replacement text) = .ok result := by
  rw [substituteAll]
  rcases value v with e | replacement
  · exact ⟨nofun, nofun⟩
  · constructor
    · exact fun h ↦ ⟨replacement, rfl, h⟩
    · rintro ⟨_, hv, h⟩
      obtain rfl := Except.ok.inj hv
      exact h

theorem exists_value_of_substituteAll {value : Variable → Except ConfigError (List Char)}
    {turns : List Variable} {text result : List Char}
    (h : substituteAll value turns text = .ok result) (hv : v ∈ turns) :
    ∃ replacement, value v = .ok replacement := by
  induction turns generalizing text with
  | nil => exact absurd hv List.not_mem_nil
  | cons u turns ih =>
    obtain ⟨replacement, hu, hrest⟩ := substituteAll_cons_eq_ok_iff.1 h
    rcases List.mem_cons.1 hv with rfl | hv
    · exact ⟨replacement, hu⟩
    · exact ih hrest hv

theorem substituteAll_append {value : Variable → Except ConfigError (List Char)}
    {turns : List Variable} {text text' : List Char}
    (h : substituteAll value turns text = .ok text') (turns' : List Variable) :
    substituteAll value (turns ++ turns') text = substituteAll value turns' text' := by
  induction turns generalizing text with
  | nil =>
    obtain rfl := Except.ok.inj h
    rfl
  | cons v turns ih =>
    obtain ⟨replacement, hv, hrest⟩ := substituteAll_cons_eq_ok_iff.1 h
    rw [List.cons_append, substituteAll, hv]
    exact ih hrest

/-! ## Where a spelling stands -/

/-- A spelling ends at its only closing brace, so none begins in another one and ends behind it. -/
theorem spelling_prefix_of_append (hv : v.Proper) (htext : text ≠ [])
    (h : v.spelling <+: text ++ (v.spelling ++ rest)) : v.spelling <+: text := by
  rcases List.prefix_or_prefix_of_prefix h (List.prefix_append text _) with hbegins | ⟨u, hu⟩
  · exact hbegins
  · rcases List.eq_nil_or_concat' u with rfl | ⟨u, c, rfl⟩
    · rw [← hu, List.append_nil]
    · have hlength : text.length + (u ++ [c]).length = v.spelling.length := by
        rw [← List.length_append, hu]
      have hspelling : v.spelling.length = (v.opening ++ v.word).length + 1 := by
        rw [spelling_eq, List.length_append, List.length_singleton]
      have hpos := List.length_pos_iff.2 htext
      -- what is left behind the text is a proper beginning of the spelling, so it has no brace
      have hbegin : u ++ [c] <+: v.opening ++ v.word := by
        have hrest : u ++ [c] <+: v.spelling ++ rest := by
          rw [← hu] at h
          nth_rewrite 2 [hu] at h
          exact (List.prefix_append_right_inj text).1 h
        refine List.prefix_of_prefix_length_le hrest ?_ (by omega)
        rw [spelling_eq, List.append_assoc (v.opening ++ v.word)]
        exact List.prefix_append _ _
      -- but it ends with the brace
      have hlast : c = '\x7d' := by
        rw [spelling_eq, ← List.append_assoc] at hu
        exact List.singleton_inj.1 (List.append_inj' hu rfl).2
      have hmem : '\x7d' ∈ v.opening ++ v.word :=
        hbegin.subset (List.mem_append_right u (hlast ▸ List.mem_singleton_self c))
      rcases List.mem_append.1 hmem with hopening | hword
      · exact absurd hopening v.brace_notMem_opening
      · exact absurd hword hv.2

/-- **A spelling is replaced wherever it stands**, whatever it came from. -/
theorem replaceAll_spelling (hv : v.Proper) (value before after : List Char) :
    Text.replaceAll v.spelling value (before ++ v.spelling ++ after) =
      Text.replaceAll v.spelling value before ++ value ++
        Text.replaceAll v.spelling value after := by
  have hwithin : Text.Within v.spelling before (v.spelling ++ after) := by
    induction before with
    | nil => trivial
    | cons c before ih => exact ⟨spelling_prefix_of_append hv (List.cons_ne_nil c before), ih⟩
  rw [List.append_assoc, Text.replaceAll_append_of_within hwithin,
    Text.replaceAll_word_append (List.ne_nil_of_length_pos v.length_spelling_pos),
    List.append_assoc]

/-! ## Substitution -/

theorem substitute_of_undisturbed {host : Host} {configPath : String} (hcut : Cut text pieces)
    (hvalues : ∀ v ∈ refs pieces, HasValue host configPath v (values v))
    (h : Undisturbed values pieces [] (refs pieces)) :
    substitute (resolve host configPath) text = .ok (replaced values pieces) := by
  have hall := substituteAll_eq (fun v hv ↦ resolve_eq_ok_iff.2 (hvalues v hv)) h
  rw [hcut.shown_nil, List.append_nil] at hall
  rw [substitute, hcut.all_eq, hall, shown_eq_replaced fun v hv ↦ List.mem_reverse.2 hv]

/-- **When a substitution is simultaneous.** Every text can be cut into references and other
characters, and if every reference has a value, the substitution has a result. If in every turn the
spelling of the reference stands in places of this reference only, the result is the text with all
references replaced at once. In any case a turn replaces the spelling of its reference wherever it
stands in the result so far, also where it is from the value of a reference that had its turn. -/
theorem substitute_simultaneous (host : Host) (configPath : String) (text : List Char) :
    (∃ pieces, Cut text pieces) ∧
      ∀ pieces values, Cut text pieces →
        (∀ v ∈ refs pieces, HasValue host configPath v (values v)) →
        (∃ result, substitute (resolve host configPath) text = .ok result) ∧
          (Undisturbed values pieces [] (refs pieces) →
            substitute (resolve host configPath) text = .ok (replaced values pieces)) ∧
          ∀ before v after left right, refs pieces = before ++ v :: after →
            substituteAll (resolve host configPath) before text =
              .ok (left ++ v.spelling ++ right) →
            substitute (resolve host configPath) text =
              substituteAll (resolve host configPath) after
                (Text.replaceAll v.spelling (values v) left ++ values v ++
                  Text.replaceAll v.spelling (values v) right) := by
  refine ⟨exists_cut text, fun pieces values hcut hvalues ↦ ?_⟩
  have hresolve : ∀ v ∈ refs pieces, resolve host configPath v = .ok (values v) :=
    fun v hv ↦ resolve_eq_ok_iff.2 (hvalues v hv)
  refine ⟨?_, substitute_of_undisturbed hcut hvalues, ?_⟩
  · rw [substitute, hcut.all_eq]
    exact exists_substituteAll hresolve text
  · intro before v after left right hrefs hbefore
    have hv : v ∈ refs pieces := hrefs ▸ List.mem_append_right before List.mem_cons_self
    rw [substitute, hcut.all_eq, hrefs, substituteAll_append hbefore, substituteAll, hresolve v hv]
    exact congrArg _ (replaceAll_spelling (hcut.proper hv) (values v) left right)

/-- A value with braces of its own, and a reference that occurs twice. -/
theorem substitute_simultaneous_braces :
    let host : Host :=
      { file := fun _ ↦ some [0x20, 0x79, 0x0A], env := fun _ ↦ some "\x7b\x7d" }
    let a := env ['A']
    let f := file ['f']
    let text := a.spelling ++ '-' :: (f.spelling ++ (a.spelling ++ []))
    let pieces := [.ref a, .char '-', .ref f, .ref a]
    let values : Variable → List Char := fun v ↦ if v = a then ['\x7b', '\x7d'] else ['y']
    Cut text pieces ∧ (∀ v ∈ refs pieces, HasValue host "c" v (values v)) ∧
      Undisturbed values pieces [] (refs pieces) ∧
      substitute (resolve host "c") text = .ok "\x7b\x7d-y\x7b\x7d".toList := by
  intro host a f text pieces values
  have hcut : Cut text pieces := by
    refine .ref a (by decide) (.char '-' ?_ (.ref f (by decide) (.ref a (by decide) .nil)))
    rintro (_ | _) - ⟨_, hbegins⟩
    · cases hbegins
    · cases hbegins
  have henv : HasValue host "c" a (values a) := ⟨"\x7b\x7d", rfl, rfl⟩
  have hfile : HasValue host "c" f (values f) := ⟨" y\n".toList, rfl, rfl⟩
  have hvalues : ∀ v ∈ refs pieces, HasValue host "c" v (values v) :=
    List.forall_mem_cons.2
      ⟨henv, List.forall_mem_cons.2 ⟨hfile, List.forall_mem_singleton.2 henv⟩⟩
  have hundisturbed : Undisturbed values pieces [] (refs pieces) := by decide
  obtain ⟨-, hturns⟩ := substitute_simultaneous host "c" text
  exact ⟨hcut, hvalues, hundisturbed, (hturns pieces values hcut hvalues).2.1 hundisturbed⟩

/-- The value of one variable refers to another. If that one has its turn later, it is replaced in
the value too, and if it had its turn before, it is not. -/
theorem substitute_simultaneous_nested :
    let host : Host :=
      { file := fun _ ↦ none,
        env := fun name ↦ some (if name = "A" then "\x7benv:B\x7d" else "x") }
    let a := env ['A']
    let b := env ['B']
    let pieces := [.ref a, .ref b]
    let values : Variable → List Char := fun v ↦ if v = a then b.spelling else ['x']
    Cut (a.spelling ++ (b.spelling ++ [])) pieces ∧
      (∀ v ∈ refs pieces, HasValue host "c" v (values v)) ∧
      replaced values pieces = b.spelling ++ ['x'] ∧
      substitute (resolve host "c") (a.spelling ++ (b.spelling ++ [])) = .ok ['x', 'x'] ∧
      substitute (resolve host "c") (b.spelling ++ a.spelling) = .ok ('x' :: b.spelling) := by
  intro host a b pieces values
  have hvalues : ∀ v ∈ refs pieces, HasValue host "c" v (values v) :=
    List.forall_mem_cons.2
      ⟨⟨"\x7benv:B\x7d", rfl, rfl⟩, List.forall_mem_singleton.2 ⟨"x", rfl, rfl⟩⟩
  have hcut : Cut (a.spelling ++ (b.spelling ++ [])) pieces :=
    .ref a (by decide) (.ref b (by decide) .nil)
  exact ⟨hcut, hvalues, by decide, by decide, by decide⟩

end AgentSession.Variable
