import AgentSession.Proofs.Config.Comments
import AgentSession.Proofs.Json.Token
/-!
# Texts and comments

Every text can be cut into comments and other characters (`Comments.exists_parted`). What a comment
says is left out when its body is taken away, and a comment without a body has at most the line feed
that ends it. So two texts that differ in the bodies of their comments are compared with the text in
which all of these are empty (`Segment.emptied`).

A comment is only read as one if it is met outside quotes. If it then has line feeds in its body,
these are left, so the comment must stand at a boundary of tokens. `Segment.Apart` says this of
every comment; then the tokens do not depend on the bodies (`Segment.tokens_join`).
-/

namespace AgentSession

open Comments (State)

/-! ## Bodies -/

namespace Comment

def body : Comment → List Char
  | line body | block body | lastLine body | lastBlock body => body

/-- What follows the slash. -/
def mark : Comment → Char
  | line _ | lastLine _ => '/'
  | block _ | lastBlock _ => '*'

def ending : Comment → List Char
  | line _ => ['\n']
  | block _ => ['*', '/']
  | lastLine _ | lastBlock _ => []

/-- The comment of the same kind that says something else. -/
def withBody : Comment → List Char → Comment
  | line _, body => line body
  | block _, body => block body
  | lastLine _, body => lastLine body
  | lastBlock _, body => lastBlock body

def emptied (c : Comment) : Comment := c.withBody []

variable {c : Comment} {s : State} {rest : List Char}

theorem spelling_eq (c : Comment) : c.spelling = '/' :: c.mark :: (c.body ++ c.ending) := by
  rcases c with body | body | body | body
  · rfl
  · rfl
  · rw [ending, List.append_nil]
    rfl
  · rw [ending, List.append_nil]
    rfl

theorem spelling_withBody (c : Comment) (body : List Char) :
    (c.withBody body).spelling = '/' :: c.mark :: (body ++ c.ending) := by
  rw [spelling_eq]
  rcases c with _ | _ | _ | _ <;> rfl

theorem withBody_body (c : Comment) : c.withBody c.body = c := by
  rcases c with _ | _ | _ | _ <;> rfl

theorem emptied_withBody (c : Comment) (body : List Char) :
    (c.withBody body).emptied = c.emptied := by
  rcases c with _ | _ | _ | _ <;> rfl

theorem isLast_emptied (c : Comment) : c.emptied.isLast = c.isLast := by
  rcases c with _ | _ | _ | _ <;> rfl

theorem wellFormed_emptied (c : Comment) : c.emptied.WellFormed := by
  rcases c with _ | _ | _ | _
  all_goals exact of_decide_eq_true rfl

/-- A comment that leaves no more line feeds than it must has none in its body. -/
theorem feed_notMem_body (hc : c.WellFormed) (hfeeds : c.feeds = c.emptied.feeds) :
    '\n' ∉ c.body := by
  have hblock : ∀ body : List Char, body.filter (· = '\n') = [] → '\n' ∉ body := by
    intro body hnone hmem
    exact List.filter_eq_nil_iff.1 hnone '\n' hmem (decide_eq_true rfl)
  rcases c with body | body | body | body
  · exact hc
  · exact hblock body hfeeds
  · exact hc
  · exact hblock body hfeeds

/-- A comment that ends with its text has nothing behind it. -/
theorem finish_plain (hc : c.WellFormed) (hlast : c.isLast → rest = []) :
    State.plain.finish (c.spelling ++ rest) = c.feeds ++ State.plain.finish rest := by
  by_cases h : c.isLast
  · rw [hlast h, List.append_nil, finish_spelling hc]
    exact (List.append_nil _).symm
  · exact finish_spelling_append hc (Bool.not_eq_true _ ▸ h) rest

/-- Behind a slash, or in the line of another comment, everything up to the next line feed is
removed. -/
theorem finish_line {x : Char} {body : List Char} (hs : s = .slash ∨ s = .line) (hx : x ≠ '\n')
    (hbody : '\n' ∉ body) (rest : List Char) :
    s.finish ('/' :: x :: (body ++ rest)) = State.line.finish rest := by
  obtain ⟨houtput, hrun⟩ := read_line (List.not_mem_cons_of_ne_of_not_mem hx.symm hbody)
  have hopened : s.finish ('/' :: x :: (body ++ rest)) =
      State.line.finish (x :: body ++ rest) := by
    rcases hs with rfl | rfl
    · rfl
    · rfl
  rw [hopened, State.finish_append, houtput, hrun]
  rfl

/-- Outside quotes and blocks, a comment without line feeds in its body is read as the empty one
would be. -/
theorem finish_emptied (hs : s = .plain ∨ s = .slash ∨ s = .line) (hc : c.WellFormed)
    (hlast : c.isLast → rest = []) (hfeeds : c.feeds = c.emptied.feeds) :
    s.finish (c.spelling ++ rest) = s.finish (c.emptied.spelling ++ rest) := by
  rcases hs with rfl | hline
  · rw [finish_plain hc hlast, hfeeds, finish_plain c.wellFormed_emptied]
    rwa [isLast_emptied]
  · have hmark : c.mark ≠ '\n' := by
      rcases c with _ | _ | _ | _
      all_goals exact of_decide_eq_true rfl
    have hbody := finish_line hline hmark (feed_notMem_body hc hfeeds) (c.ending ++ rest)
    have hempty := finish_line hline hmark List.not_mem_nil (c.ending ++ rest)
    rw [spelling_eq, emptied, spelling_withBody, List.cons_append, List.cons_append,
      List.append_assoc, hbody]
    exact hempty.symm

end Comment

/-! ## Segments -/

/-- A part of a text. -/
inductive Segment where
  | text (chars : List Char)
  | comment (c : Comment)
deriving DecidableEq, Repr

namespace Segment

def spelling : Segment → List Char
  | text chars => chars
  | comment c => c.spelling

def emptied : Segment → Segment
  | text chars => text chars
  | comment c => comment c.emptied

def join (segments : List Segment) : List Char := segments.flatMap spelling

theorem join_cons (segment : Segment) (segments : List Segment) :
    join (segment :: segments) = segment.spelling ++ join segments := List.flatMap_cons

end Segment

namespace Comments

/-- The comments and the other characters of the end of a text, when the part before it leaves a
state. There is a comment wherever one opens outside quotes. -/
inductive Parted : State → List Char → List Segment → Prop where
  | nil {s : State} : Parted s [] []
  | comment {rest : List Char} {segments : List Segment} (c : Comment) (hc : c.WellFormed)
      (hlast : c.isLast → rest = []) (h : Parted .plain rest segments) :
      Parted .plain (c.spelling ++ rest) (.comment c :: segments)
  | char {s : State} {rest : List Char} {segments : List Segment} (x : Char)
      (hnone : s = .plain → ∀ c : Comment, ¬c.spelling <+: x :: rest)
      (h : Parted (s.next x) rest segments) : Parted s (x :: rest) (.text [x] :: segments)

variable {s : State} {text rest : List Char} {segments : List Segment}

theorem Parted.join_eq (h : Parted s text segments) : Segment.join segments = text := by
  induction h with
  | nil => rfl
  | comment c hc hlast h ih => rw [Segment.join_cons, ih, Segment.spelling]
  | char x hnone h ih => rw [Segment.join_cons, ih, Segment.spelling, List.singleton_append]

theorem Parted.eq_nil (h : Parted s text segments) (htext : text = []) : segments = [] := by
  rcases h with _ | ⟨c, _, _, _⟩ | _
  · rfl
  · rw [Comment.spelling_eq] at htext
    cases htext
  · cases htext

/-- A block ends at the first star with a slash. -/
theorem exists_ending (h : ['*', '/'] <:+: text) :
    ∃ body rest, text = body ++ ['*', '/'] ++ rest ∧ ¬['*', '/'] <:+: body := by
  obtain ⟨body, rest, rfl⟩ := h
  induction hlength : body.length using Nat.strong_induction_on generalizing body rest with
  | h n ih =>
    subst hlength
    by_cases hinner : ['*', '/'] <:+: body
    · obtain ⟨first, second, rfl⟩ := hinner
      have hshorter : first.length < (first ++ ['*', '/'] ++ second).length := by
        simp only [List.length_append, List.length_cons]
        omega
      have hfirst := ih _ hshorter first (second ++ ['*', '/'] ++ rest) rfl
      simp only [List.append_assoc] at hfirst ⊢
      exact hfirst
    · exact ⟨body, rest, rfl, hinner⟩

/-- Where a comment opens there is one. -/
theorem exists_comment {c : Comment} (h : c.spelling <+: text) :
    ∃ (c : Comment) (rest : List Char), c.WellFormed ∧ (c.isLast → rest = []) ∧
      text = c.spelling ++ rest := by
  obtain ⟨after, rfl⟩ := h
  rw [Comment.spelling_eq, List.cons_append, List.cons_append]
  have hmark : c.mark = '/' ∨ c.mark = '*' := by
    rcases c with _ | _ | _ | _
    · exact .inl rfl
    · exact .inr rfl
    · exact .inl rfl
    · exact .inr rfl
  generalize c.body ++ c.ending ++ after = opened
  rcases hmark with hmark | hmark
  · rw [hmark]
    by_cases hfeed : '\n' ∈ opened
    · obtain ⟨body, rest, rfl, hbody⟩ := List.eq_append_cons_of_mem hfeed
      refine ⟨.line body, rest, hbody, nofun, ?_⟩
      rw [Comment.spelling, List.cons_append, List.cons_append, List.append_assoc]
      rfl
    · exact ⟨.lastLine opened, [], hfeed, fun _ ↦ rfl, (List.append_nil _).symm⟩
  · rw [hmark]
    by_cases hends : ['*', '/'] <:+: opened
    · obtain ⟨body, rest, rfl, hbody⟩ := exists_ending hends
      exact ⟨.block body, rest, hbody, nofun, rfl⟩
    · exact ⟨.lastBlock opened, [], hends, fun _ ↦ rfl, (List.append_nil _).symm⟩

/-- No comment has been opened, and a slash that was read opens none with the rest. -/
def Unopened : State → List Char → Prop
  | .plain, _ | .quotes, _ | .escape, _ => True
  | .slash, rest => ∀ x ∈ rest.head?, x ≠ '/' ∧ x ≠ '*'
  | .line, _ | .block _, _ => False

theorem unopened_next {x : Char} (hs : Unopened s (x :: rest))
    (hnone : s = .plain → ∀ c : Comment, ¬c.spelling <+: x :: rest) :
    Unopened (s.next x) rest := by
  have hother : Unopened (if x = '"' then .quotes else .plain) rest := by
    split <;> trivial
  rcases s with _ | _ | _ | _ | _ | _
  · by_cases hslash : x = '/'
    · subst hslash
      intro y hy
      obtain ⟨after, rfl⟩ := List.head?_eq_some_iff.1 hy
      constructor
      · rintro rfl
        exact hnone rfl (.lastLine []) ⟨after, rfl⟩
      · rintro rfl
        exact hnone rfl (.lastBlock []) ⟨after, rfl⟩
    · rw [State.next, if_neg hslash]
      exact hother
  · obtain ⟨hslash, hstar⟩ := hs x rfl
    rw [State.next, if_neg hslash, if_neg hstar]
    exact hother
  · rw [State.next]
    split
    · trivial
    · split <;> trivial
  · trivial
  · exact hs.elim
  · exact hs.elim

theorem exists_parted_of_unopened (hs : Unopened s text) : ∃ segments, Parted s text segments := by
  induction hlength : text.length using Nat.strong_induction_on generalizing s text with
  | h n ih =>
    subst hlength
    rcases text with _ | ⟨x, rest⟩
    · exact ⟨[], .nil⟩
    · by_cases hopens : s = .plain ∧ ∃ c : Comment, c.spelling <+: x :: rest
      · obtain ⟨rfl, _, hbegins⟩ := hopens
        obtain ⟨c, after, hc, hlast, htext⟩ := exists_comment hbegins
        have hshorter : after.length < (x :: rest).length := by
          rw [htext, Comment.spelling_eq]
          simp only [List.length_append, List.length_cons]
          omega
        obtain ⟨segments, hsegments⟩ := ih _ hshorter (s := .plain) trivial rfl
        exact ⟨.comment c :: segments, htext ▸ .comment c hc hlast hsegments⟩
      · have hnone : s = .plain → ∀ c : Comment, ¬c.spelling <+: x :: rest :=
          fun hplain c hbegins ↦ hopens ⟨hplain, c, hbegins⟩
        obtain ⟨segments, hsegments⟩ :=
          ih rest.length (Nat.lt_succ_self _) (unopened_next hs hnone) rfl
        exact ⟨.text [x] :: segments, .char x hnone hsegments⟩

/-- **Every text can be cut into comments and other characters.** -/
theorem exists_parted (text : List Char) : ∃ segments, Parted .plain text segments :=
  exists_parted_of_unopened trivial

end Comments

/-! ## Tokens -/

/-- The tokens of a text without its comments. -/
def Comments.tokens (text : List Char) : Option (List Token) := Token.scan (Comments.strip text)

namespace Segment

open Token (Boundary Spaced)

variable {before rest : List Char} {s : State} {segments : List Segment} {c : Comment}

/-- The body of a comment has no influence on the tokens. The comment is met in a state behind
`before` and in front of `rest`, of which the comments have been removed. -/
def Unread (before : List Char) (s : State) (c : Comment) (rest : List Char) : Prop :=
  (s = .plain ∨ s = .slash ∨ s = .line) ∧ c.feeds = c.emptied.feeds ∨
    s = .plain ∧ Boundary before rest

instance (before : List Char) (s : State) (c : Comment) (rest : List Char) :
    Decidable (Unread before s c rest) := instDecidableOr

/-- It is so for all comments of the end of a text, when the part before it leaves a state, and
`before` is what is left of that part when the comments are removed. -/
def Apart : List Char → State → List Segment → Prop
  | _, _, [] => True
  | before, s, text chars :: segments => Apart (before ++ s.output chars) (s.run chars) segments
  | before, s, comment c :: segments =>
    (c.WellFormed ∧ (c.isLast → segments = [])) ∧
      Unread before s c
        ((s.run c.emptied.spelling).finish (join (segments.map emptied))) ∧
      Apart (before ++ s.output c.emptied.spelling) (s.run c.emptied.spelling) segments

instance Apart.decidable : (before : List Char) → (s : State) → (segments : List Segment) →
    Decidable (Apart before s segments)
  | _, _, [] => .isTrue trivial
  | before, s, text chars :: segments => Apart.decidable (before ++ s.output chars) _ segments
  | before, s, comment c :: segments =>
    have := Apart.decidable (before ++ s.output c.emptied.spelling)
      (s.run c.emptied.spelling) segments
    instDecidableAnd

theorem apart_comment (hc : c.WellFormed) (hlast : c.isLast → segments = [])
    (hfeeds : c.feeds = c.emptied.feeds) (h : ∀ before, Apart before .plain segments)
    (before : List Char) : Apart before .plain (comment c :: segments) := by
  refine ⟨⟨hc, hlast⟩, .inl ⟨.inl rfl, hfeeds⟩, ?_⟩
  by_cases hend : c.isLast
  · rw [hlast hend]
    trivial
  · have hrun : State.plain.run c.emptied.spelling = .plain := by
      refine Comment.run_spelling c.wellFormed_emptied ?_
      rw [Comment.isLast_emptied]
      exact Bool.not_eq_true _ ▸ hend
    rw [hrun]
    exact h _

/-- In a text that is cut into comments and other characters, all comments are read as comments. -/
theorem apart_of_parted {text : List Char} (h : Comments.Parted s text segments)
    (hfeeds : ∀ c, comment c ∈ segments → c.feeds = c.emptied.feeds) (before : List Char) :
    Apart before s segments := by
  induction h generalizing before with
  | nil => trivial
  | comment c hc hlast h ih =>
    exact apart_comment hc (fun hend ↦ h.eq_nil (hlast hend)) (hfeeds c List.mem_cons_self)
      (ih fun c hc ↦ hfeeds c (List.mem_cons_of_mem _ hc)) before
  | char x hnone h ih => exact ih (fun c hc ↦ hfeeds c (List.mem_cons_of_mem _ hc)) _

/-- What is left of comments apart from what is left of empty ones are line feeds at boundaries. -/
theorem Apart.spaced (h : Apart before s segments) :
    Spaced before (s.finish (join (segments.map emptied))) (s.finish (join segments)) := by
  induction segments generalizing before s with
  | nil => exact .refl _ _
  | cons segment segments ih =>
    rw [List.map_cons, join_cons, join_cons]
    rcases segment with chars | c
    · change Spaced _ (s.finish (chars ++ _)) (s.finish (chars ++ _))
      rw [State.finish_append, State.finish_append]
      exact (ih h).append (s.output chars)
    · obtain ⟨⟨hc, hlast⟩, hunread, hrest⟩ := h
      have hspaced := ih hrest
      have hjoin : c.isLast → join segments = [] := fun h ↦ by rw [hlast h]; rfl
      change Spaced _ (s.finish (c.emptied.spelling ++ _)) (s.finish (c.spelling ++ _))
      by_cases hfeeds : c.feeds = c.emptied.feeds
      · have hs : s = .plain ∨ s = .slash ∨ s = .line := by
          rcases hunread with ⟨hs, -⟩ | ⟨hs, -⟩
          · exact hs
          · exact .inl hs
        rw [Comment.finish_emptied hs hc hjoin hfeeds, State.finish_append, State.finish_append]
        exact hspaced.append _
      · obtain ⟨rfl, hboundary⟩ := hunread.resolve_left fun h ↦ hfeeds h.2
        rw [Comment.finish_plain hc hjoin]
        -- only a block can have line feeds in its body, and the empty block leaves nothing
        rcases c with body | body | body | body
        · exact absurd rfl hfeeds
        · have hbefore : before ++ State.plain.output (Comment.block []).spelling = before :=
            List.append_nil before
          change Spaced (before ++ State.plain.output (Comment.block []).spelling) _ _ at hspaced
          rw [hbefore] at hspaced
          exact hspaced.feeds hboundary fun _ ↦ Comment.eq_of_mem_feeds
        · exact absurd rfl hfeeds
        · obtain rfl := hlast rfl
          exact Spaced.feeds hboundary .nil fun _ ↦ Comment.eq_of_mem_feeds

/-- **The bodies of comments have no influence on the tokens.** -/
theorem tokens_join (h : Apart [] .plain segments) :
    Comments.tokens (join segments) = Comments.tokens (join (segments.map emptied)) := by
  rw [Comments.tokens, Comments.tokens, Comments.strip_eq, Comments.strip_eq]
  exact Token.scan_of_spaced h.spaced

end Segment

end AgentSession
