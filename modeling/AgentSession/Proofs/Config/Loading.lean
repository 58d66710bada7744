import AgentSession.Config.Load
import AgentSession.Proofs.Config.Segments
import AgentSession.Proofs.Config.Substitution
/-!
# Comments in a file that is loaded

When a file is loaded, variables are replaced before comments are removed. So a reference in a
comment is looked up as any other is, and the file is not loaded if it has no value
(`Config.hasValue_of_load`).

If it has one, the value is put into the body of the comment, and the comment may stay a comment.
This is so if no reference lies across the end of a comment, if the substitution is simultaneous,
and if every comment is still read as one when all values are in their places (`Config.Inert`). For
the last point it matters what is in the body, which must not end the comment, and what is in front
of it: behind a quote that a value has brought along there is no comment. Then the texts outside
comments become what they would be without the comments, and these have no influence
(`Config.load_comments`). In a text that refers to nothing all this holds of the comments that are
found in it (`Config.inert_of_parted`).
-/

namespace AgentSession

namespace Segment

open Variable (Piece)

variable {values values' : Variable → List Char} {segments segments' : List Segment}

/-! ## References in texts and in comments -/

/-- The pieces of a segment. There is no reference in the marks of a comment. -/
def pieces : Segment → List Piece
  | text chars => Variable.cut chars
  | comment c =>
    .char '/' :: .char c.mark :: (Variable.cut c.body ++ c.ending.map Piece.char)

/-- The segment in which all references are replaced. -/
def filled (values : Variable → List Char) : Segment → Segment
  | text chars => text (Variable.replaced values (Variable.cut chars))
  | comment c => comment (c.withBody (Variable.replaced values (Variable.cut c.body)))

theorem spelling_filled (values : Variable → List Char) (segment : Segment) :
    (segment.filled values).spelling = Variable.replaced values segment.pieces := by
  rcases segment with chars | c
  · rfl
  · rw [filled, spelling, Comment.spelling_withBody]
    change '/' :: c.mark :: _ = '/' :: c.mark :: Variable.replaced values (_ ++ _)
    rw [Variable.replaced_append, Variable.replaced_map_char]

theorem join_filled (values : Variable → List Char) (segments : List Segment) :
    join (segments.map (filled values)) = Variable.replaced values (segments.flatMap pieces) := by
  induction segments with
  | nil => rfl
  | cons segment segments ih =>
    rw [List.map_cons, join_cons, ih, spelling_filled, ← Variable.replaced_append]
    rfl

/-- The references outside comments. -/
def references (segments : List Segment) : List Variable :=
  segments.flatMap fun
    | text chars => Variable.all chars
    | comment _ => []

/-- The references in comments. -/
def commented (segments : List Segment) : List Variable :=
  segments.flatMap fun
    | text _ => []
    | comment c => Variable.all c.body

theorem mem_references {v : Variable} : v ∈ references segments ↔
    ∃ chars, text chars ∈ segments ∧ v ∈ Variable.all chars := by
  rw [references, List.mem_flatMap]
  constructor
  · rintro ⟨chars | c, hsegment, hv⟩
    · exact ⟨chars, hsegment, hv⟩
    · cases hv
  · rintro ⟨chars, hsegment, hv⟩
    exact ⟨text chars, hsegment, hv⟩

theorem mem_commented {v : Variable} : v ∈ commented segments ↔
    ∃ c, comment c ∈ segments ∧ v ∈ Variable.all c.body := by
  rw [commented, List.mem_flatMap]
  constructor
  · rintro ⟨chars | c, hsegment, hv⟩
    · cases hv
    · exact ⟨c, hsegment, hv⟩
  · rintro ⟨c, hsegment, hv⟩
    exact ⟨comment c, hsegment, hv⟩

theorem refs_pieces_comment (c : Comment) :
    Variable.refs (comment c).pieces = Variable.all c.body := by
  rw [Variable.all_eq_refs_cut]
  change List.filterMap _ (Variable.cut c.body ++ _) = _
  rw [List.filterMap_append]
  exact (congrArg _ (Variable.refs_map_char c.ending)).trans (List.append_nil _)

theorem mem_refs_pieces {v : Variable} : v ∈ Variable.refs (segments.flatMap pieces) ↔
    v ∈ references segments ∨ v ∈ commented segments := by
  rw [Variable.refs, List.filterMap_flatMap, List.mem_flatMap, mem_references, mem_commented]
  constructor
  · rintro ⟨chars | c, hsegment, hv⟩
    · refine .inl ⟨chars, hsegment, ?_⟩
      rw [Variable.all_eq_refs_cut]
      exact hv
    · refine .inr ⟨c, hsegment, ?_⟩
      rw [← refs_pieces_comment]
      exact hv
  · rintro (⟨chars, hsegment, hv⟩ | ⟨c, hsegment, hv⟩)
    · rw [Variable.all_eq_refs_cut] at hv
      exact ⟨text chars, hsegment, hv⟩
    · rw [← refs_pieces_comment] at hv
      exact ⟨comment c, hsegment, hv⟩

theorem references_emptied (segments : List Segment) :
    references (segments.map emptied) = references segments := by
  refine (List.flatMap_map ..).trans (List.flatMap_congr fun segment _ ↦ ?_)
  rcases segment with _ | _ <;> rfl

theorem references_congr (hsame : segments.map emptied = segments'.map emptied) :
    references segments = references segments' := by
  rw [← references_emptied, hsame, references_emptied]

theorem filled_emptied (values : Variable → List Char) (c : Comment) :
    (comment c.emptied).filled values = comment c.emptied := by
  rcases c with _ | _ | _ | _ <;> rfl

theorem emptied_filled (values : Variable → List Char) (segment : Segment) :
    (segment.filled values).emptied = segment.emptied.filled values := by
  rcases segment with chars | c
  · rfl
  · exact (congrArg comment (c.emptied_withBody _)).trans (filled_emptied values c).symm

/-- What becomes of the texts depends on the values of their references only. -/
theorem map_emptied_filled (hsame : segments.map emptied = segments'.map emptied)
    (hvalues : ∀ v ∈ references segments, values v = values' v) :
    (segments.map (filled values)).map emptied = (segments'.map (filled values')).map emptied := by
  have hcommute : ∀ values : Variable → List Char,
      emptied ∘ filled values = filled values ∘ emptied :=
    fun values ↦ funext (emptied_filled values)
  rw [List.map_map, List.map_map, hcommute, hcommute, ← List.map_map, ← List.map_map, ← hsame,
    List.map_map, List.map_map]
  refine List.map_congr_left fun segment hsegment ↦ ?_
  rcases segment with chars | c
  · refine congrArg text (Variable.replaced_congr fun v hv ↦ hvalues v ?_)
    rw [← Variable.all_eq_refs_cut] at hv
    exact mem_references.2 ⟨chars, hsegment, hv⟩
  · exact (filled_emptied values c).trans (filled_emptied values' c).symm

/-! ## Texts without references -/

variable {segment : Segment}

theorem spelling_isInfix_join (h : segment ∈ segments) : segment.spelling <:+: join segments :=
  List.infix_of_mem_flatten (List.mem_map_of_mem h)

theorem cut_body_eq_map_char {c : Comment}
    (hnone : ∀ v : Variable, v.Proper → ¬v.spelling <:+: c.spelling) :
    Variable.cut c.body = c.body.map .char := by
  have hbody : c.body <:+: c.spelling := by
    rw [Comment.spelling_eq]
    exact ⟨['/', c.mark], c.ending, rfl⟩
  exact Variable.cut_eq_map_char fun v hv hinner ↦ hnone v hv (hinner.trans hbody)

theorem pieces_eq_map_char (hnone : ∀ v : Variable, v.Proper → ¬v.spelling <:+: segment.spelling) :
    segment.pieces = segment.spelling.map .char := by
  rcases segment with chars | c
  · exact Variable.cut_eq_map_char hnone
  · rw [pieces, cut_body_eq_map_char hnone, spelling, Comment.spelling_eq, List.map_cons,
      List.map_cons, List.map_append]

theorem filled_eq_self (hnone : ∀ v : Variable, v.Proper → ¬v.spelling <:+: segment.spelling)
    (values : Variable → List Char) : segment.filled values = segment := by
  rcases segment with chars | c
  · have hcut : Variable.cut chars = chars.map .char := Variable.cut_eq_map_char hnone
    rw [filled, hcut, Variable.replaced_map_char]
  · rw [filled, cut_body_eq_map_char hnone, Variable.replaced_map_char, Comment.withBody_body]

end Segment

namespace Config

variable {host host' : Host} {path : String} {text text' : List Char} {c : Config}

/-! ## Loading -/

theorem read_of_tokens_eq (h : Comments.tokens text = Comments.tokens text') (source : String) :
    read source text = read source text' := by
  have hscan : Token.scan (Comments.strip text) = Token.scan (Comments.strip text') := h
  rw [read, read, Reader.run, Reader.run, Written.parse, Written.parse, hscan]

/-- A file is loaded only if all its references have values, also those in comments. -/
theorem hasValue_of_load (htext : host.text path = some text) (h : load host path = .ok c)
    {v : Variable} (hv : v ∈ Variable.all text) :
    ∃ value, Variable.HasValue host path v value := by
  rw [load, htext] at h
  rcases hfilled : Variable.substitute (Variable.resolve host path) text with e | filled
  · simp only [hfilled, reduceCtorEq] at h
  · obtain ⟨value, hvalue⟩ := Variable.exists_value_of_substituteAll hfilled hv
    exact ⟨value, Variable.resolve_eq_ok_iff.1 hvalue⟩

/-- The comments among the segments of a file are no more than comments when it is loaded. -/
structure Inert (host : Host) (path : String) (segments : List Segment) : Prop where
  /-- No reference lies across the end of a comment. -/
  cut : Variable.cut (Segment.join segments) = segments.flatMap Segment.pieces
  /-- What is referred to in comments is there. -/
  commented : ∀ v ∈ Segment.commented segments, ∃ value, Variable.HasValue host path v value
  /-- If the other references have values too, all are replaced at once, and the comments are read
  as comments after that. -/
  settled : (∀ v ∈ Segment.references segments, ∃ value, Variable.HasValue host path v value) →
    Variable.Undisturbed (Variable.found host path) (segments.flatMap Segment.pieces) []
        (Variable.refs (segments.flatMap Segment.pieces)) ∧
      Segment.Apart [] .plain (segments.map (Segment.filled (Variable.found host path)))

variable {segments segments' : List Segment}

theorem Inert.mem_all (h : Inert host path segments) {v : Variable} :
    v ∈ Variable.all (Segment.join segments) ↔
      v ∈ Segment.references segments ∨ v ∈ Segment.commented segments := by
  rw [Variable.all_eq_refs_cut, h.cut]
  exact Segment.mem_refs_pieces

/-- Loading a file with inert comments is reading it with all references replaced at once. -/
theorem Inert.load_eq (h : Inert host path segments)
    (htext : host.text path = some (Segment.join segments))
    (hvalues : ∀ v ∈ Segment.references segments,
      ∃ value, Variable.HasValue host path v value) :
    load host path =
      read path (Segment.join ((segments.map (Segment.filled (Variable.found host path))).map
        Segment.emptied)) := by
  obtain ⟨hundisturbed, hapart⟩ := h.settled hvalues
  have hall : ∀ v ∈ Variable.refs (segments.flatMap Segment.pieces),
      Variable.HasValue host path v (Variable.found host path v) := by
    intro v hv
    refine Variable.hasValue_found ?_
    rcases Segment.mem_refs_pieces.1 hv with hv | hv
    · exact hvalues v hv
    · exact h.commented v hv
  have hsubstitute :=
    Variable.substitute_of_undisturbed (Variable.cut_iff.2 h.cut) hall hundisturbed
  rw [load, htext]
  simp only [hsubstitute, ← Segment.join_filled]
  exact read_of_tokens_eq (Segment.tokens_join hapart) path

/-- Comments that are inert in two files may say different things. -/
theorem Inert.load_of_load (h : Inert host path segments) (h' : Inert host' path segments')
    (htext : host.text path = some (Segment.join segments))
    (htext' : host'.text path = some (Segment.join segments'))
    (hsame : segments.map Segment.emptied = segments'.map Segment.emptied)
    (hresolve : ∀ v ∈ Segment.references segments,
      Variable.resolve host path v = Variable.resolve host' path v)
    (hload : load host path = .ok c) : load host' path = .ok c := by
  have hvalues : ∀ v ∈ Segment.references segments,
      ∃ value, Variable.HasValue host path v value :=
    fun v hv ↦ hasValue_of_load htext hload (h.mem_all.2 (.inl hv))
  have hvalues' : ∀ v ∈ Segment.references segments',
      ∃ value, Variable.HasValue host' path v value := by
    intro v hv
    rw [← Segment.references_congr hsame] at hv
    obtain ⟨value, hvalue⟩ := hvalues v hv
    refine ⟨value, Variable.resolve_eq_ok_iff.1 ?_⟩
    rw [← hresolve v hv]
    exact Variable.resolve_eq_ok_iff.2 hvalue
  have hfound : ∀ v ∈ Segment.references segments,
      Variable.found host path v = Variable.found host' path v := by
    intro v hv
    rw [Variable.found, Variable.found, hresolve v hv]
  rw [h'.load_eq htext' hvalues', ← Segment.map_emptied_filled hsame hfound,
    ← h.load_eq htext hvalues]
  exact hload

/-- The comments of a text without references are inert, unless there are line feeds in blocks. -/
theorem inert_of_parted (hparted : Comments.Parted .plain text segments)
    (hnone : ∀ v : Variable, v.Proper → ¬v.spelling <:+: text)
    (hfeeds : ∀ c, .comment c ∈ segments → c.feeds = c.emptied.feeds) (host : Host)
    (path : String) : Inert host path segments := by
  obtain rfl := hparted.join_eq
  have hsegment : ∀ segment ∈ segments, ∀ v : Variable, v.Proper →
      ¬v.spelling <:+: segment.spelling :=
    fun segment h v hv hinner ↦ hnone v hv (hinner.trans (Segment.spelling_isInfix_join h))
  have hpieces : segments.flatMap Segment.pieces = (Segment.join segments).map .char := by
    rw [Segment.join, List.map_flatMap]
    exact List.flatMap_congr fun segment h ↦ Segment.pieces_eq_map_char (hsegment segment h)
  have hrefs : Variable.refs (segments.flatMap Segment.pieces) = [] := by
    rw [hpieces, Variable.refs_map_char]
  have hfilled : segments.map (Segment.filled (Variable.found host path)) = segments :=
    (List.map_congr_left fun segment h ↦ Segment.filled_eq_self (hsegment segment h) _).trans
      (List.map_id segments)
  refine ⟨(Variable.cut_eq_map_char hnone).trans hpieces.symm, fun v hv ↦ ?_, fun _ ↦ ?_⟩
  · have hmem := Segment.mem_refs_pieces.2 (.inr hv)
    rw [hrefs] at hmem
    cases hmem
  · rw [hrefs, hfilled]
    exact ⟨trivial, Segment.apart_of_parted hparted hfeeds []⟩

/-- **When comments have no influence.** The text of a file can be cut into comments and other
characters, and the comments are inert if the text refers to nothing and no block has a line feed.
The file is not loaded if a reference has no value, and this counts references in comments too. Two
files that differ in the bodies of their comments only, and whose references outside comments have
the same values, are loaded alike if the comments are inert in both. -/
theorem load_comments (host : Host) (path : String) :
    (∀ text, host.text path = some text →
      (∃ segments, Comments.Parted .plain text segments ∧ Segment.join segments = text) ∧
        (∀ segments, Comments.Parted .plain text segments →
          (∀ v : Variable, v.Proper → ¬v.spelling <:+: text) →
          (∀ c, .comment c ∈ segments → c.feeds = c.emptied.feeds) → Inert host path segments) ∧
        ∀ c, load host path = .ok c →
          ∀ v ∈ Variable.all text, ∃ value, Variable.HasValue host path v value) ∧
      ∀ host' segments segments', host.text path = some (Segment.join segments) →
        host'.text path = some (Segment.join segments') →
        segments.map Segment.emptied = segments'.map Segment.emptied →
        (∀ v ∈ Segment.references segments,
          Variable.resolve host path v = Variable.resolve host' path v) →
        Inert host path segments → Inert host' path segments' →
        ∀ c, load host path = .ok c ↔ load host' path = .ok c := by
  constructor
  · intro text htext
    obtain ⟨segments, hsegments⟩ := Comments.exists_parted text
    exact ⟨⟨segments, hsegments, hsegments.join_eq⟩,
      fun segments hparted hnone hfeeds ↦ inert_of_parted hparted hnone hfeeds host path,
      fun c hload v hv ↦ hasValue_of_load htext hload hv⟩
  · intro host' segments segments' htext htext' hsame hresolve h h' c
    constructor
    · exact h.load_of_load h' htext htext' hsame hresolve
    · rw [Segment.references_congr hsame] at hresolve
      exact h'.load_of_load h htext' htext hsame.symm fun v hv ↦ (hresolve v hv).symm

/-- A value with two slashes in quotes, and a comment with a reference whose value is a quote. In
the other file the same comments say other things. -/
theorem load_comments_quotes :
    let host (text : List Char) : Host :=
      { file := fun _ ↦ some (Utf8.encode text),
        env := fun name ↦ some (if name = "A" then "x//y" else "\"") }
    let file (first second : List Char) : List Segment :=
      [.text "\x7b\"url\":\"\x7benv:A\x7d\"".toList, .comment (.line first),
        .text ",\"timeout_ms\":1".toList, .comment (.block second), .text ['\x7d']]
    let segments := file "was \x7benv:B\x7d".toList ['\n']
    let segments' := file "it's".toList []
    Inert (host (Segment.join segments)) "c" segments ∧
      Inert (host (Segment.join segments')) "c" segments' ∧
      ∀ c, load (host (Segment.join segments)) "c" = .ok c ↔
        load (host (Segment.join segments')) "c" = .ok c := by
  intro host file segments segments'
  have hinert : Inert (host (Segment.join segments)) "c" segments := by
    refine ⟨by decide +kernel, ?_, fun _ ↦ by decide +kernel⟩
    have hcommented : Segment.commented segments = [.env ['B']] := by decide +kernel
    rw [hcommented]
    exact List.forall_mem_singleton.2 ⟨['"'], "\"", rfl, rfl⟩
  have hinert' : Inert (host (Segment.join segments')) "c" segments' := by
    refine ⟨by decide +kernel, ?_, fun _ ↦ by decide +kernel⟩
    have hcommented : Segment.commented segments' = [] := by decide +kernel
    rw [hcommented]
    exact nofun
  have htext : (host (Segment.join segments)).text "c" = some (Segment.join segments) := by
    decide +kernel
  have htext' : (host (Segment.join segments')).text "c" = some (Segment.join segments') := by
    decide +kernel
  have hresolve : ∀ v ∈ Segment.references segments,
      Variable.resolve (host (Segment.join segments)) "c" v =
        Variable.resolve (host (Segment.join segments')) "c" v := by decide +kernel
  obtain ⟨-, hload⟩ := load_comments (host (Segment.join segments)) "c"
  exact ⟨hinert, hinert', hload (host (Segment.join segments')) segments segments' htext htext' rfl
    hresolve hinert hinert'⟩

/-- A comment at the end of a file refers to a variable that does not exist. -/
theorem load_comments_missing :
    let host (text : List Char) : Host :=
      { file := fun _ ↦ some (Utf8.encode text), env := fun _ ↦ none }
    let file (body : List Char) : List Segment :=
      [.text ['\x7b', '\x7d'], .comment (.lastLine body)]
    let segments := file "\x7benv:U\x7d".toList
    let segments' := file ['x']
    segments.map Segment.emptied = segments'.map Segment.emptied ∧
      load (host (Segment.join segments')) "c" = .ok {} ∧
      load (host (Segment.join segments)) "c" = .error (.config (.envVarNotFound "U")) := by
  decide +kernel

end Config

end AgentSession
