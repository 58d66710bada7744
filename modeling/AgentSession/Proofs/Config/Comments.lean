import AgentSession.Config.Comments
import Mathlib.Data.List.Infix
/-!
# Removing comments, one character at a time

Comments are removed by a scan that looks one character ahead: a slash is kept or not according to
what follows it. Here the same is done by a machine that looks at single characters and has a state
for a slash that is still to be written (`Comments.strip_eq`). So what becomes of a text after
another one depends on the state in which the first one leaves the machine, and on nothing else.

What the machine writes, it reads back unchanged: its output never has two slashes, or a slash and
a star, outside quotes. Hence removing comments twice is removing them once
(`Comments.strip_strip`). Every character that it leaves out is no line feed
(`Comments.count_strip`).
-/

namespace AgentSession.Comments

/-! ## The machine -/

/-- What a text leaves open. -/
inductive State where
  | plain
  /-- Outside quotes, behind a slash that has not been written yet. -/
  | slash
  | quotes
  /-- In quotes, behind a backslash. -/
  | escape
  | line
  | block (star : Bool)
deriving DecidableEq, Repr

namespace State

def next : State → Char → State
  | plain, c => if c = '/' then slash else if c = '"' then quotes else plain
  | slash, c =>
    if c = '/' then line else if c = '*' then block false else if c = '"' then quotes else plain
  | quotes, c => if c = '\\' then escape else if c = '"' then plain else quotes
  | escape, _ => quotes
  | line, c => if c = '\n' then plain else line
  | block star, c => if star = true ∧ c = '/' then plain else block (c = '*')

/-- What is written when a character is read. -/
def emit : State → Char → List Char
  | plain, c => if c = '/' then [] else [c]
  | slash, c => if c = '/' ∨ c = '*' then [] else ['/', c]
  | quotes, c | escape, c => [c]
  | line, c => if c = '\n' then [c] else []
  | block star, c => if star = true ∧ c = '/' then [] else if c = '\n' then [c] else []

def run (s : State) (text : List Char) : State := text.foldl next s

def output : State → List Char → List Char
  | _, [] => []
  | s, c :: text => s.emit c ++ (s.next c).output text

/-- What is written at the end of the text. -/
def flush : State → List Char
  | slash => ['/']
  | _ => []

/-- All that is written from a state on. -/
def finish (s : State) (text : List Char) : List Char := s.output text ++ (s.run text).flush

variable {s : State} {text rest : List Char} {c : Char}

theorem run_append (s : State) (text rest : List Char) :
    s.run (text ++ rest) = (s.run text).run rest := List.foldl_append

theorem output_append (s : State) (text rest : List Char) :
    s.output (text ++ rest) = s.output text ++ (s.run text).output rest := by
  induction text generalizing s with
  | nil => rfl
  | cons c text ih =>
    rw [List.cons_append, output, output, ih, List.append_assoc]
    rfl

theorem finish_nil (s : State) : s.finish [] = s.flush := rfl

theorem finish_append (s : State) (text rest : List Char) :
    s.finish (text ++ rest) = s.output text ++ (s.run text).finish rest := by
  rw [finish, output_append, run_append, List.append_assoc, finish]

theorem finish_cons (s : State) (c : Char) (text : List Char) :
    s.finish (c :: text) = s.emit c ++ (s.next c).finish text := by
  rw [finish, output, List.append_assoc, finish]
  rfl

/-! ## The machine and the scan -/

/-- What the scan makes of the rest of a text, of which the part that is over leaves a state. -/
def scanned : State → List Char → List Char
  | plain, rest => stripFrom .plain rest
  | slash, rest => stripFrom .plain ('/' :: rest)
  | quotes, rest => stripFrom .quotes rest
  | escape, [] => []
  | escape, c :: rest => c :: stripFrom .quotes rest
  | line, rest => stripFrom .line rest
  | block star, rest => stripFrom (.block star) rest

theorem stripFrom_plain_of_ne (h : c ≠ '/') (rest : List Char) :
    stripFrom .plain (c :: rest) = c :: stripFrom (if c = '"' then .quotes else .plain) rest := by
  rw [stripFrom]
  · intro rest' hc
    exact absurd hc h
  · intro rest' hc
    exact absurd hc h

theorem stripFrom_slash_of_ne (hslash : c ≠ '/') (hstar : c ≠ '*') (rest : List Char) :
    stripFrom .plain ('/' :: c :: rest) = '/' :: stripFrom .plain (c :: rest) := by
  rw [stripFrom, if_neg (by decide)]
  · intro rest' _ hrest
    exact hslash (List.cons.inj hrest).1
  · intro rest' _ hrest
    exact hstar (List.cons.inj hrest).1

theorem stripFrom_quotes_of_ne (h : c ≠ '\\') (rest : List Char) :
    stripFrom .quotes (c :: rest) = c :: stripFrom (if c = '"' then .plain else .quotes) rest := by
  rw [stripFrom]
  intro d rest' hc
  exact absurd hc h

theorem scanned_cons (s : State) (c : Char) (rest : List Char) :
    s.scanned (c :: rest) = s.emit c ++ (s.next c).scanned rest := by
  rcases s with _ | _ | _ | _ | _ | star
  · by_cases hslash : c = '/'
    · subst hslash
      rfl
    · rw [scanned, stripFrom_plain_of_ne hslash, emit, if_neg hslash, next, if_neg hslash]
      split <;> rfl
  · by_cases hslash : c = '/'
    · subst hslash
      rfl
    · by_cases hstar : c = '*'
      · subst hstar
        rfl
      · rw [scanned, stripFrom_slash_of_ne hslash hstar, stripFrom_plain_of_ne hslash, emit,
          if_neg (not_or.2 ⟨hslash, hstar⟩), next, if_neg hslash, if_neg hstar]
        split <;> rfl
  · by_cases hescape : c = '\\'
    · subst hescape
      rcases rest with _ | ⟨d, rest⟩
      · rfl
      · rfl
    · rw [scanned, stripFrom_quotes_of_ne hescape, next, if_neg hescape]
      split <;> rfl
  · rfl
  · rw [scanned, stripFrom, emit, next]
    split <;> rfl
  · rw [scanned, stripFrom, emit, next]
    split
    · rfl
    · split
      · rename_i hfeed
        subst hfeed
        rfl
      · rfl

theorem finish_eq_scanned (s : State) (rest : List Char) : s.finish rest = s.scanned rest := by
  induction rest generalizing s with
  | nil =>
    rcases s with _ | _ | _ | _ | _ | _
    all_goals rfl
  | cons c rest ih => rw [finish_cons, scanned_cons, ih]

end State

/-- The machine removes comments as the scan does. -/
theorem strip_eq (text : List Char) : strip text = State.plain.finish text :=
  (State.finish_eq_scanned .plain text).symm

/-! ## What is written -/

namespace State

/-- The state that is left by what a machine in a state has written. -/
def written : State → State
  | plain | slash | line | block _ => plain
  | quotes => quotes
  | escape => escape

theorem output_singleton (s : State) (c : Char) : s.output [c] = s.emit c := List.append_nil _

/-- What is written is read back as it is, and leaves the state that it should. -/
theorem reread_emit (s : State) (c : Char) :
    s.written.output (s.emit c) = s.emit c ∧ s.written.run (s.emit c) = (s.next c).written := by
  rcases s with _ | _ | _ | _ | _ | star
  · by_cases hslash : c = '/'
    · subst hslash
      exact ⟨rfl, rfl⟩
    · have hemit : plain.emit c = [c] := if_neg hslash
      rw [hemit]
      refine ⟨(output_singleton _ _).trans hemit, ?_⟩
      change plain.next c = _
      rw [next, if_neg hslash]
      split <;> rfl
  · by_cases hopens : c = '/' ∨ c = '*'
    · rcases hopens with rfl | rfl
      · exact ⟨rfl, rfl⟩
      · exact ⟨rfl, rfl⟩
    · have hemit : slash.emit c = ['/', c] := if_neg hopens
      obtain ⟨hslash, hstar⟩ := not_or.1 hopens
      rw [hemit]
      -- the slash that was held back is held back again, and written with `c`
      refine ⟨(output_singleton slash c).trans hemit, ?_⟩
      change slash.next c = _
      rw [next, if_neg hslash, if_neg hstar]
      split <;> rfl
  · refine ⟨rfl, ?_⟩
    change quotes.next c = _
    rw [next]
    split
    · rfl
    · split <;> rfl
  · exact ⟨rfl, rfl⟩
  · by_cases hfeed : c = '\n'
    · subst hfeed
      exact ⟨rfl, rfl⟩
    · rw [emit, next, if_neg hfeed, if_neg hfeed]
      exact ⟨rfl, rfl⟩
  · by_cases hends : star = true ∧ c = '/'
    · rw [emit, next, if_pos hends, if_pos hends]
      exact ⟨rfl, rfl⟩
    · rw [emit, next, if_neg hends, if_neg hends]
      by_cases hfeed : c = '\n'
      · subst hfeed
        exact ⟨rfl, rfl⟩
      · rw [if_neg hfeed]
        exact ⟨rfl, rfl⟩

theorem reread_output (s : State) (text : List Char) :
    s.written.output (s.output text) = s.output text ∧
      s.written.run (s.output text) = (s.run text).written := by
  induction text generalizing s with
  | nil => exact ⟨rfl, rfl⟩
  | cons c text ih =>
    obtain ⟨houtput, hrun⟩ := s.reread_emit c
    obtain ⟨htext, hstate⟩ := ih (s.next c)
    rw [output, output_append, run_append, houtput, hrun, htext, hstate]
    exact ⟨rfl, rfl⟩

theorem count_emit (s : State) (c : Char) : (s.emit c).count '\n' = [c].count '\n' := by
  rcases s with _ | _ | _ | _ | _ | star
  · by_cases hslash : c = '/'
    · subst hslash
      rfl
    · rw [emit, if_neg hslash]
  · by_cases hopens : c = '/' ∨ c = '*'
    · rw [emit, if_pos hopens]
      rcases hopens with rfl | rfl
      · rfl
      · rfl
    · rw [emit, if_neg hopens]
      exact List.count_cons_of_ne (by decide)
  · rfl
  · rfl
  · by_cases hfeed : c = '\n'
    · rw [emit, if_pos hfeed]
    · rw [emit, if_neg hfeed, List.count_cons_of_ne hfeed]
  · by_cases hends : star = true ∧ c = '/'
    · rw [emit, if_pos hends, hends.2]
      rfl
    · by_cases hfeed : c = '\n'
      · rw [emit, if_neg hends, if_pos hfeed]
      · rw [emit, if_neg hends, if_neg hfeed, List.count_cons_of_ne hfeed]

theorem count_output (s : State) (text : List Char) :
    (s.output text).count '\n' = text.count '\n' := by
  induction text generalizing s with
  | nil => rfl
  | cons c text ih =>
    rw [output, List.count_append, ih, count_emit, ← List.count_append, List.singleton_append]

end State

/-- **Removing comments twice is removing them once.** -/
theorem strip_strip (text : List Char) : strip (strip text) = strip text := by
  obtain ⟨houtput, hrun⟩ := State.reread_output .plain text
  rw [strip_eq, strip_eq, State.finish.eq_def .plain text, State.finish_append]
  change State.plain.written.output _ ++ (State.plain.written.run _).finish _ = _
  rw [houtput, hrun]
  rcases State.plain.run text with _ | _ | _ | _ | _ | _
  all_goals rfl

theorem count_strip (text : List Char) : (strip text).count '\n' = text.count '\n' := by
  rw [strip_eq, State.finish, List.count_append, State.count_output]
  rcases State.plain.run text with _ | _ | _ | _ | _ | _
  all_goals rfl

end AgentSession.Comments

namespace AgentSession

/-! ## Comments as they are written -/

/-- A comment. The last two end with the text that they stand in. -/
inductive Comment where
  | line (body : List Char)
  | block (body : List Char)
  | lastLine (body : List Char)
  | lastBlock (body : List Char)
deriving DecidableEq, Repr

namespace Comment

open Comments (State)

/-- The characters of a comment; the line feed that ends a line is one of them. -/
def spelling : Comment → List Char
  | line body => '/' :: '/' :: (body ++ ['\n'])
  | block body => '/' :: '*' :: (body ++ ['*', '/'])
  | lastLine body => '/' :: '/' :: body
  | lastBlock body => '/' :: '*' :: body

/-- The comment does not end before its end. -/
def WellFormed : Comment → Prop
  | line body | lastLine body => '\n' ∉ body
  | block body | lastBlock body => ¬['*', '/'] <:+: body

instance : (c : Comment) → Decidable c.WellFormed
  | line body | lastLine body => inferInstanceAs (Decidable ('\n' ∉ body))
  | block body | lastBlock body => inferInstanceAs (Decidable ¬['*', '/'] <:+: body)

def isLast : Comment → Bool
  | line _ | block _ => false
  | lastLine _ | lastBlock _ => true

/-- The line feeds that are left of a comment. -/
def feeds : Comment → List Char
  | line _ => ['\n']
  | block body | lastBlock body => body.filter (· = '\n')
  | lastLine _ => []

variable {c : Comment} {body : List Char}

theorem eq_of_mem_feeds {x : Char} (h : x ∈ c.feeds) : x = '\n' := by
  rcases c with _ | _ | _ | _
  · exact List.mem_singleton.1 h
  · exact of_decide_eq_true (List.mem_filter.1 h).2
  · cases h
  · exact of_decide_eq_true (List.mem_filter.1 h).2

theorem read_line (h : '\n' ∉ body) :
    State.line.output body = [] ∧ State.line.run body = .line := by
  induction body with
  | nil => exact ⟨rfl, rfl⟩
  | cons x body ih =>
    obtain ⟨hx, hbody⟩ := not_or.1 (mt List.mem_cons.2 h)
    obtain ⟨houtput, hrun⟩ := ih hbody
    have hnext : State.line.next x = .line := if_neg (Ne.symm hx)
    have hemit : State.line.emit x = [] := if_neg (Ne.symm hx)
    refine ⟨?_, ?_⟩
    · rw [State.output, hemit, hnext, houtput]
      rfl
    · rw [State.run, List.foldl_cons, hnext]
      exact hrun

/-- In a block, only a star with a slash ends it. The star may stand before the text that is
read. -/
theorem read_block (star : Bool) (h : ¬['*', '/'] <:+: body)
    (hhead : star = true → body.head? ≠ some '/') :
    (State.block star).output body = body.filter (· = '\n') ∧
      ∃ star', (State.block star).run body = .block star' := by
  induction body generalizing star with
  | nil => exact ⟨rfl, star, rfl⟩
  | cons x body ih =>
    have hopen : ¬(star = true ∧ x = '/') := by
      rintro ⟨hstar, rfl⟩
      exact hhead hstar rfl
    have hbody : ¬['*', '/'] <:+: body :=
      fun hinner ↦ h (hinner.trans (List.suffix_cons x body).isInfix)
    have hnext : (State.block star).next x = .block (x = '*') := if_neg hopen
    have hclosed : decide (x = '*') = true → body.head? ≠ some '/' := by
      intro hstar hslash
      obtain ⟨rest, rfl⟩ := List.head?_eq_some_iff.1 hslash
      rw [of_decide_eq_true hstar] at h
      exact h ⟨[], rest, rfl⟩
    obtain ⟨houtput, star', hrun⟩ := ih (x = '*') hbody hclosed
    refine ⟨?_, star', ?_⟩
    · rw [State.output, hnext, houtput, State.emit, if_neg hopen, List.filter_cons]
      by_cases hfeed : x = '\n'
      · rw [if_pos hfeed, if_pos (decide_eq_true hfeed)]
        rfl
      · rw [if_neg hfeed, if_neg (by simpa using hfeed)]
        rfl
    · rw [State.run, List.foldl_cons, hnext]
      exact hrun

theorem output_spelling (h : c.WellFormed) : State.plain.output c.spelling = c.feeds := by
  rcases c with body | body | body | body
  · obtain ⟨houtput, hrun⟩ := read_line h
    change State.line.output (body ++ ['\n']) = _
    rw [State.output_append, houtput, hrun]
    rfl
  · obtain ⟨houtput, star, hrun⟩ := read_block false h nofun
    change (State.block false).output (body ++ ['*', '/']) = _
    rw [State.output_append, houtput, hrun]
    exact (congrArg _ (by rcases star with _ | _ <;> rfl)).trans (List.append_nil _)
  · exact (read_line h).1
  · exact (read_block false h nofun).1

theorem run_spelling (h : c.WellFormed) (hlast : c.isLast = false) :
    State.plain.run c.spelling = .plain := by
  rcases c with body | body | body | body
  · change State.line.run (body ++ ['\n']) = _
    rw [State.run_append, (read_line h).2]
    rfl
  · obtain ⟨-, star, hrun⟩ := read_block false h nofun
    change (State.block false).run (body ++ ['*', '/']) = _
    rw [State.run_append, hrun]
    rcases star with _ | _ <;> rfl
  · cases hlast
  · cases hlast

/-- Of a comment, only line feeds are left. -/
theorem finish_spelling_append (h : c.WellFormed) (hlast : c.isLast = false) (rest : List Char) :
    State.plain.finish (c.spelling ++ rest) = c.feeds ++ State.plain.finish rest := by
  rw [State.finish_append, output_spelling h, run_spelling h hlast]

theorem finish_spelling (h : c.WellFormed) : State.plain.finish c.spelling = c.feeds := by
  rw [State.finish, output_spelling h]
  rcases c with body | body | body | body
  · rw [run_spelling h rfl]
    rfl
  · rw [run_spelling h rfl]
    exact List.append_nil _
  · change _ ++ (State.line.run body).flush = _
    rw [(read_line h).2]
    rfl
  · obtain ⟨-, star, hrun⟩ := read_block false h nofun
    change _ ++ ((State.block false).run body).flush = _
    rw [hrun]
    exact List.append_nil _

end Comment

end AgentSession
