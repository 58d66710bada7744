import AgentSession.Json.Pointer
import AgentSession.Proofs.Text.Cut
import AgentSession.Proofs.Text.Replace
/-!
# Pointers as text

A text is read as a pointer by cutting it at its slashes and undoing the escapes in each piece;
a pointer is written by escaping each segment and putting a slash in front of it. Escaping leaves no
slash in a segment, so the cuts are just where the slashes were put, and the two are inverse to each
other (`Pointer.parse_eq_ok_iff`), but for two texts: the empty one also stands for the whole
document, and the single slash does not stand for the pointer with one empty segment.

## Which texts are pointers

Whether a text is read is told by its tildes alone. One that ends a piece is followed by a slash or
by nothing, so it is as bad in the whole text as in the piece (`Pointer.forall_escaped_splitAll`).
-/

namespace AgentSession

namespace Pointer

variable {text segment : List Char} {c : Char} {path : String} {p : Pointer}

/-! ## Escapes -/

/-- Every tilde in a text is followed by a zero or a one. -/
def Escaped (text : List Char) : Prop :=
  ∀ before after, text = before ++ '~' :: after → after.head? = some '0' ∨ after.head? = some '1'

theorem escaped_nil : Escaped [] := by
  intro before after h
  exact absurd h.symm (List.append_ne_nil_of_right_ne_nil _ (List.cons_ne_nil _ _))

theorem escaped_cons : Escaped (c :: text) ↔
    (c = '~' → text.head? = some '0' ∨ text.head? = some '1') ∧ Escaped text := by
  constructor
  · intro h
    refine ⟨fun hc ↦ h [] text (by rw [hc, List.nil_append]), fun before after htext ↦ ?_⟩
    exact h (c :: before) after (by rw [htext, List.cons_append])
  · rintro ⟨hfirst, hrest⟩ before after htext
    cases before with
    | nil =>
      obtain ⟨hc, rfl⟩ := List.cons.inj htext
      exact hfirst hc
    | cons b before => exact hrest before after (List.cons.inj htext).2

theorem escaped_cons_of_ne (hc : c ≠ '~') : Escaped (c :: text) ↔ Escaped text := by
  rw [escaped_cons]
  exact and_iff_right fun h ↦ absurd h hc

theorem isSome_unescape_iff : (unescape text).isSome ↔ Escaped text := by
  fun_induction unescape text with
  | case1 => exact iff_of_true rfl escaped_nil
  | case2 rest ih =>
    rw [Option.isSome_map, ih, escaped_cons, escaped_cons_of_ne (by decide)]
    exact (and_iff_right fun _ ↦ .inl rfl).symm
  | case3 rest ih =>
    rw [Option.isSome_map, ih, escaped_cons, escaped_cons_of_ne (by decide)]
    exact (and_iff_right fun _ ↦ .inr rfl).symm
  | case4 rest h0 h1 =>
    refine iff_of_false Bool.false_ne_true fun h ↦ ?_
    rcases (escaped_cons.1 h).1 rfl with hzero | hone
    · obtain ⟨rest', rfl⟩ := List.head?_eq_some_iff.1 hzero
      exact h0 rest' rfl rfl
    · obtain ⟨rest', rfl⟩ := List.head?_eq_some_iff.1 hone
      exact h1 rest' rfl rfl
  | case5 c rest h0 h1 hc ih =>
    rw [Option.isSome_map, ih, escaped_cons_of_ne hc]

/-- A tilde at the end of a piece is followed by a slash or by nothing in the whole text. -/
theorem forall_escaped_splitAll :
    (∀ piece ∈ Text.splitAll '/' text, Escaped piece) ↔ Escaped text := by
  induction text with
  | nil => simp [Text.splitAll, escaped_nil]
  | cons c text ih =>
    by_cases hc : c = '/'
    · rw [hc, Text.splitAll_cons_self, List.forall_mem_cons, ih, escaped_cons_of_ne (by decide)]
      exact and_iff_right escaped_nil
    · obtain ⟨piece, pieces, hpieces⟩ := Text.exists_splitAll '/' text
      have hhead (d : Char) (hd : d ≠ '/') : piece.head? = some d ↔ text.head? = some d := by
        rw [Text.head?_splitAll hpieces, Option.filter_eq_some_iff]
        exact and_iff_left (by simpa using hd)
      rw [hpieces, List.forall_mem_cons] at ih
      rw [Text.splitAll_cons_of_ne hc hpieces, List.forall_mem_cons, escaped_cons, escaped_cons,
        hhead '0' (by decide), hhead '1' (by decide), ← ih, and_assoc]

/-- What is written for a character of a segment. -/
def escapeChar (c : Char) : List Char :=
  if c = '~' then ['~', '0'] else if c = '/' then ['~', '1'] else [c]

/-- Escaping tildes and then slashes is one pass over the characters, as escaping a tilde makes no
slash. -/
theorem escape_eq_flatMap (segment : List Char) : escape segment = segment.flatMap escapeChar := by
  rw [escape, Text.replaceAll_singleton, Text.replaceAll_singleton, List.flatMap_assoc]
  refine List.flatMap_congr fun c _ ↦ ?_
  by_cases hc : c = '~' <;> simp [escapeChar, hc]

theorem escape_cons (c : Char) (rest : List Char) :
    escape (c :: rest) = escapeChar c ++ escape rest := by
  rw [escape_eq_flatMap, escape_eq_flatMap, List.flatMap_cons]

theorem unescape_escapeChar_append (c : Char) (rest : List Char) :
    unescape (escapeChar c ++ rest) = (unescape rest).map (c :: ·) := by
  unfold escapeChar
  split_ifs with htilde hslash
  · simp [unescape, htilde]
  · simp [unescape, hslash]
  · simp [unescape, htilde]

theorem unescape_escape (segment : List Char) : unescape (escape segment) = some segment := by
  induction segment with
  | nil => rfl
  | cons c rest ih => rw [escape_cons, unescape_escapeChar_append, ih, Option.map_some]

theorem slash_notMem_escapeChar (c : Char) : '/' ∉ escapeChar c := by
  unfold escapeChar
  split_ifs with htilde hslash
  · decide
  · decide
  · simpa using Ne.symm hslash

theorem slash_notMem_escape (segment : List Char) : '/' ∉ escape segment := by
  rw [escape_eq_flatMap, List.mem_flatMap]
  rintro ⟨c, -, hc⟩
  exact slash_notMem_escapeChar c hc

theorem escape_of_unescape_eq (h : unescape text = some segment) (htext : '/' ∉ text) :
    escape segment = text := by
  fun_induction unescape text generalizing segment with
  | case1 => rw [← Option.some.inj h]; rfl
  | case2 rest ih =>
    obtain ⟨segment, hsegment, rfl⟩ := Option.map_eq_some_iff.1 h
    rw [escape_cons, ih hsegment fun hmem ↦ htext (by simp [hmem])]
    rfl
  | case3 rest ih =>
    obtain ⟨segment, hsegment, rfl⟩ := Option.map_eq_some_iff.1 h
    rw [escape_cons, ih hsegment fun hmem ↦ htext (by simp [hmem])]
    rfl
  | case4 => exact absurd h.symm (Option.some_ne_none segment)
  | case5 c rest h0 h1 hc ih =>
    obtain ⟨segment, hsegment, rfl⟩ := Option.map_eq_some_iff.1 h
    obtain ⟨hslash, hrest⟩ := not_or.1 (mt List.mem_cons.2 htext)
    rw [escape_cons, escapeChar, if_neg hc, if_neg (Ne.symm hslash), ih hsegment hrest,
      List.singleton_append]

/-- A text without slashes reads as a segment just if it is what is written for the segment. -/
theorem unescape_eq_some_iff (htext : '/' ∉ text) :
    unescape text = some segment ↔ text = escape segment := by
  constructor
  · intro h
    exact (escape_of_unescape_eq h htext).symm
  · rintro rfl
    exact unescape_escape segment

/-! ## Segments -/

theorem mapM_unescape_eq_some_iff {pieces segments : List (List Char)}
    (h : ∀ piece ∈ pieces, '/' ∉ piece) :
    pieces.mapM unescape = some segments ↔ pieces = segments.map escape := by
  induction pieces generalizing segments with
  | nil => simp [eq_comm]
  | cons piece pieces ih =>
    obtain ⟨hpiece, hpieces⟩ := List.forall_mem_cons.1 h
    simp only [List.mapM_cons, Option.bind_eq_bind, Option.bind_eq_some_iff, Option.pure_def,
      Option.some.injEq, unescape_eq_some_iff hpiece, ih hpieces]
    constructor
    · rintro ⟨segment, rfl, segments, rfl, rfl⟩
      rfl
    · intro heq
      obtain ⟨segment, segments, rfl, rfl, rfl⟩ := List.map_eq_cons_iff.1 heq.symm
      exact ⟨segment, rfl, segments, rfl, rfl⟩

theorem isSome_mapM_unescape_iff {pieces : List (List Char)} :
    (pieces.mapM unescape).isSome ↔ ∀ piece ∈ pieces, Escaped piece := by
  induction pieces with
  | nil => simp
  | cons piece pieces ih =>
    rw [List.forall_mem_cons, ← ih, ← isSome_unescape_iff, List.mapM_cons]
    cases unescape piece <;> cases pieces.mapM unescape <;> simp

/-- Cutting a text at its slashes and undoing the escapes gives the segments of which the text is
made. -/
theorem mapM_unescape_splitAll_eq_some_iff {segments : List (List Char)} :
    (Text.splitAll '/' text).mapM unescape = some segments ↔
      segments ≠ [] ∧ text = ['/'].intercalate (segments.map escape) := by
  rw [Text.splitAll_eq_splitOn, mapM_unescape_eq_some_iff fun _ ↦ Text.notMem_of_mem_splitOn]
  constructor
  · intro h
    refine ⟨?_, by rw [← h, List.intercalate_splitOn]⟩
    rintro rfl
    exact List.splitOn_ne_nil '/' text h
  · rintro ⟨hne, rfl⟩
    refine List.splitOn_intercalate '/' ?_ (by simpa using hne)
    simpa using fun segment _ ↦ slash_notMem_escape segment

theorem flatMap_slash_eq_intercalate {segments : List (List Char)} (h : segments ≠ []) :
    (segments.flatMap fun segment ↦ '/' :: escape segment) =
      '/' :: ['/'].intercalate (segments.map escape) := by
  induction segments with
  | nil => exact absurd rfl h
  | cons segment segments ih =>
    cases segments with
    | nil => simp
    | cons next rest =>
      rw [List.flatMap_cons, ih (List.cons_ne_nil _ _), List.map_cons, List.map_cons,
        List.map_cons, List.intercalate_cons_cons, List.append_assoc]
      rfl

/-! ## Pointers -/

/-- What is written for a pointer, the slash of the whole document included. -/
theorem toList_render (p : Pointer) :
    p.render.toList = '/' :: ['/'].intercalate ((p.segments.map String.toList).map escape) := by
  rw [render]
  split
  next h => rw [h]; rfl
  next h =>
    rw [String.toList_ofList, ← flatMap_slash_eq_intercalate (by simpa using h), List.flatMap_map]

theorem render_eq_slash_iff : p.render = "/" ↔ p = root ∨ p.segments = [""] := by
  constructor
  · intro h
    have hnil := congrArg String.toList h
    rw [toList_render] at hnil
    by_cases hne : p.segments.map String.toList = []
    · left
      rw [root, ← List.map_eq_nil_iff.1 hne]
    · right
      have hread := mapM_unescape_splitAll_eq_some_iff.2 ⟨hne, (List.cons.inj hnil).2.symm⟩
      rw [← List.map_inj_right fun s t hst ↦ String.toList_inj.1 hst]
      exact (Option.some.inj hread).symm
  · rintro (rfl | h)
    · rfl
    · rw [← String.toList_inj, toList_render, h]
      rfl

/-- The beginnings that tell how a text is read. -/
theorem text_cases (path : String) :
    path = "" ∨ path = "/" ∨ (∃ rest, rest ≠ [] ∧ path = String.ofList ('/' :: rest)) ∨
      path ≠ "" ∧ path.toList.head? ≠ some '/' := by
  obtain ⟨text, rfl⟩ : ∃ text, path = String.ofList text :=
    ⟨path.toList, String.ofList_toList.symm⟩
  rcases text with _ | ⟨c, rest⟩
  · exact .inl rfl
  · by_cases hc : c = '/'
    · subst hc
      by_cases hrest : rest = []
      · exact .inr (.inl (by rw [hrest]))
      · exact .inr (.inr (.inl ⟨rest, hrest, rfl⟩))
    · refine .inr (.inr (.inr ⟨?_, ?_⟩))
      · simp [← String.toList_inj]
      · simpa using hc

@[simp] theorem parse_empty : parse "" = .ok root := rfl

@[simp] theorem parse_slash : parse "/" = .ok root := rfl

theorem parse_ofList_slash_cons {rest : List Char} (hrest : rest ≠ []) :
    parse (String.ofList ('/' :: rest)) = match (Text.splitAll '/' rest).mapM unescape with
      | some segments => .ok ⟨segments.map String.ofList⟩
      | none => .error (.badEscape (String.ofList ('/' :: rest))) := by
  obtain ⟨c, rest, rfl⟩ := List.exists_cons_of_ne_nil hrest
  rw [parse, String.toList_ofList]
  rfl

/-- A slash with something behind it is read as what is behind it. -/
theorem parse_ofList_slash_cons_eq_ok_iff {rest : List Char} (hrest : rest ≠ []) :
    parse (String.ofList ('/' :: rest)) = .ok p ↔
      (Text.splitAll '/' rest).mapM unescape = some (p.segments.map String.toList) := by
  rw [parse_ofList_slash_cons hrest]
  cases (Text.splitAll '/' rest).mapM unescape with
  | none => exact iff_of_false nofun (Option.some_ne_none _).symm
  | some segments =>
    rw [Option.some_inj]
    constructor
    · intro h
      rw [← Except.ok.inj h, List.map_map]
      simp
    · rintro rfl
      simp

theorem parse_ne_ok_of_head? (hne : path ≠ "") (hhead : path.toList.head? ≠ some '/')
    (p : Pointer) : parse path ≠ .ok p := by
  rw [parse]
  split
  next h => exact absurd (String.toList_inj.1 h) hne
  next h => exact absurd (by rw [h, List.head?_cons]) hhead
  next h => exact absurd (by rw [h, List.head?_cons]) hhead
  next => nofun

theorem render_ne_empty (p : Pointer) : p.render ≠ "" := by
  simp [← String.toList_inj, toList_render]

/-- Which texts are pointers, and which pointers they are. -/
theorem parse_eq_ok_iff :
    parse path = .ok p ↔ path = "" ∧ p = root ∨ path = p.render ∧ p.segments ≠ [""] := by
  rcases text_cases path with rfl | rfl | ⟨rest, hrest, rfl⟩ | ⟨hne, hhead⟩
  · rw [parse_empty, Except.ok.injEq, or_iff_left fun h ↦ render_ne_empty p h.1.symm,
      and_iff_right rfl, eq_comm]
  · have hne : "/" ≠ "" := by decide
    rw [parse_slash, Except.ok.injEq, or_iff_right fun h ↦ hne h.1]
    constructor
    · rintro rfl
      exact ⟨rfl, by decide⟩
    · rintro ⟨h, hsegments⟩
      exact ((render_eq_slash_iff.1 h.symm).resolve_right hsegments).symm
  · -- no pointer without segments and none with an empty one leaves something behind the slash
    rw [parse_ofList_slash_cons_eq_ok_iff hrest, mapM_unescape_splitAll_eq_some_iff,
      ← String.toList_inj, ← String.toList_inj, toList_render, String.toList_ofList,
      List.cons.injEq, and_iff_right rfl, or_iff_right fun h ↦ nomatch h.1]
    refine and_comm.trans (and_congr_right fun htext ↦ iff_of_true ?_ ?_)
    · intro h
      exact hrest (by rw [htext, h]; rfl)
    · intro h
      exact hrest (by rw [htext, h]; rfl)
  · refine iff_of_false (parse_ne_ok_of_head? hne hhead p) fun h ↦ ?_
    rcases h with ⟨h, -⟩ | ⟨h, -⟩
    · exact hne h
    · exact hhead (by rw [h, toList_render, List.head?_cons])

/-- Whether a text is read depends on its first character and its tildes alone. -/
theorem exists_parse_eq_ok_iff :
    (∃ p, parse path = .ok p) ↔
      path = "" ∨ path.toList.head? = some '/' ∧ Escaped path.toList := by
  rcases text_cases path with rfl | rfl | ⟨rest, hrest, rfl⟩ | ⟨hne, hhead⟩
  · exact iff_of_true ⟨root, rfl⟩ (.inl rfl)
  · exact iff_of_true ⟨root, rfl⟩ (.inr ⟨rfl, (escaped_cons_of_ne (by decide)).2 escaped_nil⟩)
  · rw [parse_ofList_slash_cons hrest, String.toList_ofList, escaped_cons_of_ne (by decide),
      ← forall_escaped_splitAll, ← isSome_mapM_unescape_iff, ← String.toList_inj]
    cases (Text.splitAll '/' rest).mapM unescape with
    | none => simp
    | some segments => simp
  · refine iff_of_false (fun ⟨p, h⟩ ↦ parse_ne_ok_of_head? hne hhead p h) fun h ↦ ?_
    exact h.elim hne fun h ↦ hhead h.1

/-- The one pointer that is not read back from what is written for it has a single, empty
segment. -/
theorem parse_render_iff : parse p.render = .ok p ↔ p.segments ≠ [""] := by
  rw [parse_eq_ok_iff, or_iff_right fun h ↦ render_ne_empty p h.1, and_iff_right rfl]

theorem segments_ne_of_parse (h : parse path = .ok p) : p.segments ≠ [""] := by
  rcases parse_eq_ok_iff.1 h with ⟨-, rfl⟩ | ⟨-, hsegments⟩
  · decide
  · exact hsegments

theorem render_of_parse (h : parse path = .ok p) : p.render = if path = "" then "/" else path := by
  rcases parse_eq_ok_iff.1 h with ⟨rfl, rfl⟩ | ⟨rfl, -⟩
  · rfl
  · rw [if_neg (render_ne_empty p)]

end Pointer

end AgentSession
