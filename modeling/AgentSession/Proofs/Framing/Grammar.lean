import AgentSession.Framing.Framer
import Mathlib.Data.List.TakeWhile
/-!
# What a whole stream spells

A framer sees a stream piece by piece and remembers of it only the line and the event that have not
ended. This module says what a stream spells by looking at all of it at once, and shows that a
framer comes to the same payloads.

## The grammar

A stream is split at its line feeds; the last part has not ended and is no line. A line loses one
carriage return at its end and is then read as text. The lines are split at the blank ones, and
again the part after the last of them has not ended. What is left are events, each a list of lines
of which those with the name `data` contribute a value.

## The invariant

`Framer.HasRead f stream popped` ties a framer to the bytes it has read and the payloads it has
given away: its open line is the last part of the stream, its open event holds what the last group
of lines contributes, and what was given away followed by what waits is what the earlier groups
spell. A piece is read byte by byte (`Framer.feed_cons`), and one byte more is one step of the split
(`splitOn_concat_of_ne`, and `List.splitOn_append_cons_self` at a separator).
-/

namespace AgentSession

/-! ## The grammar of a stream -/

namespace EventStream

/-- A line without the carriage return that it may end with. -/
def chomp (line : Bytes) : Bytes := if line.getLast? = some 0x0D then line.dropLast else line

/-- The text of a line. -/
def text (line : Bytes) : List Char := Utf8.lossy (chomp line)

/-- The lines of a stream. What stands after the last line feed is none. -/
def lines (stream : Bytes) : List (List Char) := (stream.splitOn 0x0A).dropLast.map text

/-- The name of a line: what stands before its first colon, or all of it. It is empty for a line
that starts with a colon. -/
def name (line : List Char) : List Char := line.takeWhile (· ≠ ':')

/-- The value of a line: what stands after its first colon, less one space in front. -/
def value (line : List Char) : List Char :=
  let rest := (line.dropWhile (· ≠ ':')).drop 1
  if rest.head? = some ' ' then rest.drop 1 else rest

/-- What a line contributes to its event. -/
def contribution (line : List Char) : Option (List Char) :=
  if name line = ['d', 'a', 't', 'a'] then some (value line) else none

/-- The events of some lines. What stands after the last blank line is none. -/
def events (lines : List (List Char)) : List (List (List Char)) := (lines.splitOn []).dropLast

/-- The payload of an event. -/
def payload (event : List (List Char)) : String :=
  String.ofList (['\n'].intercalate (event.filterMap contribution))

/-- The payloads that some events yield. -/
def yields (events : List (List (List Char))) : List String := (events.map payload).filter (· ≠ "")

/-- The payloads that a stream spells. -/
def payloads (stream : Bytes) : List String := yields (events (lines stream))

end EventStream

/-! ## Splitting one element later -/

/-- An element that is no separator goes to the last part. -/
theorem splitOn_concat_of_ne {α : Type} [BEq α] [LawfulBEq α] {sep a : α} (h : a ≠ sep)
    (l : List α) : (l ++ [a]).splitOn sep =
      (l.splitOn sep).dropLast ++ [(l.splitOn sep).getLast (List.splitOn_ne_nil sep l) ++ [a]] := by
  induction l with
  | nil => simp [List.splitOn_cons_eq_if_modifyHead, h]
  | cons b l ih =>
    obtain ⟨part, parts, hparts⟩ := List.exists_cons_of_ne_nil (List.splitOn_ne_nil sep l)
    simp only [List.cons_append, List.splitOn_cons_eq_if_modifyHead, ih, hparts]
    by_cases hb : b == sep
    · simp [hb]
    · cases parts <;> simp [hb]

/-- The same with the parts in hand. -/
theorem splitOn_concat_eq_of_ne {α : Type} [BEq α] [LawfulBEq α] {sep a : α} (h : a ≠ sep)
    {l last : List α} {parts : List (List α)} (hl : l.splitOn sep = parts ++ [last]) :
    (l ++ [a]).splitOn sep = parts ++ [last ++ [a]] := by
  rw [splitOn_concat_of_ne h]
  simp [hl]

/-- A separator opens a new part. -/
theorem splitOn_concat_eq_self {α : Type} [BEq α] [LawfulBEq α] {sep : α} {l last : List α}
    {parts : List (List α)} (hl : l.splitOn sep = parts ++ [last]) :
    (l ++ [sep]).splitOn sep = parts ++ [last] ++ [[]] := by
  rw [List.splitOn_append_cons_self, hl]
  rfl

/-! ## Lines one at a time -/

theorem splitFirst_eq_takeWhile (sep : Char) (text : List Char) :
    Text.splitFirst sep text =
      if sep ∈ text then some (text.takeWhile (· ≠ sep), (text.dropWhile (· ≠ sep)).drop 1)
      else none := by
  induction text with
  | nil => simp [Text.splitFirst]
  | cons c rest ih =>
    by_cases hc : c = sep
    · simp [Text.splitFirst, hc]
    · by_cases hmem : sep ∈ rest
      · simp [Text.splitFirst, hc, ih, hmem]
      · simp [Text.splitFirst, hc, ih, hmem, Ne.symm hc]

theorem dropSpace_eq (text : List Char) :
    Line.dropSpace text = if text.head? = some ' ' then text.drop 1 else text := by
  unfold Line.dropSpace
  split
  · simp
  · rename_i h
    cases text with
    | nil => simp
    | cons c rest =>
      have hc : c ≠ ' ' := fun hc ↦ h rest (by rw [hc])
      simp [hc]

/-- The meaning of a line that is not blank is what it contributes. -/
theorem read_eq_contribution {line : List Char} (h : line ≠ []) :
    Line.read line = ((EventStream.contribution line).map Line.data).getD .ignored := by
  unfold Line.read
  split
  · exact absurd rfl h
  · rw [splitFirst_eq_takeWhile, EventStream.contribution, EventStream.name, EventStream.value]
    by_cases hcolon : ':' ∈ line
    · simp only [if_pos hcolon, Line.dataField, dropSpace_eq]
      split <;> rfl
    · -- without a colon the whole line is its name, and its value is empty
      have htake : line.takeWhile (· ≠ ':') = line :=
        List.takeWhile_eq_self_iff.2 fun c hc ↦ by simpa using ne_of_mem_of_not_mem hc hcolon
      have hdrop : line.dropWhile (· ≠ ':') = [] :=
        List.dropWhile_eq_nil_iff.2 fun c hc ↦ by simpa using ne_of_mem_of_not_mem hc hcolon
      simp only [if_neg hcolon, htake, hdrop, Line.dataField]
      by_cases hdata : line = ['d', 'a', 't', 'a'] <;> simp [hdata]

theorem lineBytes_eq_chomp (line : Bytes) : Framer.lineBytes line = EventStream.chomp line := by
  simp only [Framer.lineBytes, List.isSuffixOf_iff_suffix,
    List.singleton_suffix_iff_getLast?_eq_some]
  rfl

namespace Framer

/-! ## The end of an event -/

@[simp] theorem endEvent_tail (f : Framer) : f.endEvent.tail = f.tail := by
  unfold endEvent
  split <;> rfl

@[simp] theorem endEvent_data (f : Framer) : f.endEvent.data = [] := by
  unfold endEvent
  split <;> rfl

@[simp] theorem endEvent_ready (f : Framer) :
    f.endEvent.ready = f.ready ++ [payload f.data].filter (· ≠ "") := by
  unfold endEvent
  split <;> simp [*]

/-- An event that has just ended cannot end again. -/
theorem endEvent_of_data_eq_nil {f : Framer} (h : f.data = []) : f.endEvent = f := by
  have hpayload : payload f.data = "" := by rw [h]; rfl
  rw [endEvent, if_pos hpayload, ← h]

open EventStream

/-! ## The invariant -/

/-- What a framer knows after it has read a stream and given payloads away. -/
def HasRead (f : Framer) (stream : Bytes) (given : List String) : Prop :=
  ∃ (ended : List Bytes) (groups : List (List (List Char))) (group : List (List Char)),
    stream.splitOn 0x0A = ended ++ [f.tail] ∧
      (ended.map text).splitOn [] = groups ++ [group] ∧
      f.data = group.filterMap contribution ∧
      given ++ f.ready = yields groups

theorem hasRead_nil : HasRead {} [] [] := ⟨[], [], [], rfl, rfl, rfl, rfl⟩

/-- The payloads given away and those that wait are what the stream spells. -/
theorem HasRead.append_ready {f : Framer} {stream : Bytes} {given : List String}
    (h : f.HasRead stream given) : given ++ f.ready = EventStream.payloads stream := by
  obtain ⟨ended, groups, group, hlines, hgroups, -, hready⟩ := h
  rw [hready, EventStream.payloads, events, lines, hlines, List.dropLast_concat, hgroups,
    List.dropLast_concat]

/-- A byte that ends no line goes to the open line. -/
theorem HasRead.concat_of_ne {f : Framer} {stream : Bytes} {given : List String}
    (h : f.HasRead stream given) {b : UInt8} (hb : b ≠ 0x0A) :
    (f.step b).HasRead (stream ++ [b]) given := by
  obtain ⟨ended, groups, group, hlines, hgroups, hdata, hready⟩ := h
  rw [Framer.step, dif_neg (show b ≠ lineFeed from hb)]
  exact ⟨ended, groups, group, splitOn_concat_eq_of_ne hb hlines, hgroups, hdata, hready⟩

/-- A line feed ends the open line, and with it the open event if the line is blank. -/
theorem HasRead.concat_lineFeed {f : Framer} {stream : Bytes} {given : List String}
    (h : f.HasRead stream given) : (f.step lineFeed).HasRead (stream ++ [0x0A]) given := by
  obtain ⟨ended, groups, group, hlines, hgroups, hdata, hready⟩ := h
  have hsplit := splitOn_concat_eq_self hlines
  have hline : Utf8.lossy (lineBytes f.tail) = text f.tail := by rw [lineBytes_eq_chomp, text]
  rw [step_lineFeed, endLine, hline]
  by_cases hblank : text f.tail = []
  · have hpayload : payload f.data = EventStream.payload group := by
      rw [payload, hdata, EventStream.payload]
    rw [hblank]
    -- the event ends, and the group of lines that comes next is empty
    refine ⟨ended ++ [f.tail], groups ++ [group], [], ?_, ?_, ?_, ?_⟩
    · simpa [Line.read, takeLine] using hsplit
    · rw [List.map_append, List.map_singleton, hblank, splitOn_concat_eq_self hgroups]
    · simp [Line.read, takeLine]
    · simp [Line.read, takeLine, yields, ← List.append_assoc, hready, hpayload]
  · rw [read_eq_contribution hblank]
    -- the line joins the open group, whether or not it contributes anything
    refine ⟨ended ++ [f.tail], groups, group ++ [text f.tail], ?_, ?_, ?_, ?_⟩
    · cases contribution (text f.tail) <;> simpa [takeLine] using hsplit
    · rw [List.map_append, List.map_singleton, splitOn_concat_eq_of_ne hblank hgroups]
    · cases hc : contribution (text f.tail) <;> simp [takeLine, hdata, hc]
    · cases contribution (text f.tail) <;> simpa [takeLine] using hready

theorem HasRead.step {f : Framer} {stream : Bytes} {given : List String}
    (h : f.HasRead stream given) (b : UInt8) : (f.step b).HasRead (stream ++ [b]) given := by
  by_cases hb : b = 0x0A
  · rw [hb]
    exact h.concat_lineFeed
  · exact h.concat_of_ne hb

theorem HasRead.feed {f : Framer} {stream : Bytes} {given : List String}
    (h : f.HasRead stream given) (piece : Bytes) :
    (f.feed piece).HasRead (stream ++ piece) given := by
  induction piece generalizing f stream with
  | nil => simpa using h
  | cons b piece ih =>
    rw [feed_cons, List.append_cons]
    exact ih (h.step b)

/-! ## The end of a stream -/

/-- A line without bytes is blank. -/
theorem endLine_nil (f : Framer) : f.endLine [] = f.endEvent := rfl

theorem takeLine_tail (f : Framer) (line : Line) : (f.takeLine line).tail = f.tail := by
  cases line with
  | blank => exact endEvent_tail f
  | data value => rfl
  | ignored => rfl

/-- Ending what is in progress is reading two line feeds: the first ends the line, the second the
event. -/
theorem flush_eq_feed (f : Framer) : f.flush = f.feed [0x0A, 0x0A] := by
  have htail : (f.step lineFeed).tail = [] := by
    rw [step_lineFeed, endLine, takeLine_tail, withoutTail_tail]
  have hfeed : f.feed [lineFeed, lineFeed] = (f.step lineFeed).endEvent := by
    rw [feed_cons, feed_singleton, step_lineFeed (f.step _), withoutTail_of_tail_eq_nil htail,
      htail, endLine_nil]
  refine Eq.trans ?_ hfeed.symm
  rw [step_lineFeed, flush]
  split
  · rename_i h
    rw [h, withoutTail_of_tail_eq_nil h, endLine_nil, endEvent_of_data_eq_nil (endEvent_data f)]
  · rfl

/-- Bytes that end no line go to the open line. -/
theorem feed_of_notMem {f : Framer} {piece : Bytes} (h : lineFeed ∉ piece) :
    f.feed piece = { f with
      tail := f.tail ++ piece
      lineFeed_notMem := List.not_mem_append f.lineFeed_notMem h } :=
  takeLines_of_notMem _

/-! ## Payloads that wait

Reading adds to the payloads that wait and never looks at them. -/

/-- A framer with more payloads in front of those that wait. -/
def behind (f : Framer) (waiting : List String) : Framer :=
  { f with ready := waiting ++ f.ready }

theorem endEvent_behind (f : Framer) (waiting : List String) :
    (f.behind waiting).endEvent = f.endEvent.behind waiting := by
  unfold endEvent behind
  split <;> simp

theorem takeLine_behind (f : Framer) (waiting : List String) (line : Line) :
    (f.behind waiting).takeLine line = (f.takeLine line).behind waiting := by
  cases line with
  | blank => exact endEvent_behind f waiting
  | data value => rfl
  | ignored => rfl

theorem step_behind (f : Framer) (waiting : List String) (b : UInt8) :
    (f.behind waiting).step b = (f.step b).behind waiting := by
  unfold step
  split
  · exact takeLine_behind f.withoutTail waiting _
  · rfl

theorem feed_behind (f : Framer) (waiting : List String) (piece : Bytes) :
    (f.behind waiting).feed piece = (f.feed piece).behind waiting := by
  induction piece generalizing f with
  | nil => rw [feed_nil, feed_nil]
  | cons b piece ih => rw [feed_cons, step_behind, ih, feed_cons]

theorem flush_behind (f : Framer) (waiting : List String) :
    (f.behind waiting).flush = f.flush.behind waiting := by
  rw [flush_eq_feed, flush_eq_feed, feed_behind]

end Framer

/-! ## Calls in any order -/

/-- What a framer may be asked to do. -/
inductive FramerCall where
  /-- To read a piece of the stream. -/
  | feed (piece : Bytes)
  /-- To give away the oldest payload. -/
  | next
  /-- To give away all payloads. -/
  | drain
  /-- To end whatever is in progress. -/
  | flush
deriving DecidableEq, Repr

/-- The bytes that a call adds to the stream. The end of what is in progress counts as two line
feeds. -/
def FramerCall.bytes : FramerCall → Bytes
  | .feed piece => piece
  | .next | .drain => []
  | .flush => [0x0A, 0x0A]

namespace Framer

/-- Answers a call: the payloads given away, and the framer afterwards. -/
def answer (f : Framer) : FramerCall → List String × Framer
  | .feed piece => ([], f.feed piece)
  | .next => (f.next.1.toList, f.next.2)
  | .drain => f.drain
  | .flush => ([], f.flush)

/-- Answers calls one after the other. -/
def answerAll (f : Framer) : List FramerCall → List String × Framer
  | [] => ([], f)
  | call :: calls =>
    let (given, f) := f.answer call
    let (later, f) := f.answerAll calls
    (given ++ later, f)

/-- The oldest of the payloads that wait is taken, and the others wait on. -/
theorem next_eq (f : Framer) : f.next = (f.ready.head?, { f with ready := f.ready.tail }) := by
  obtain ⟨tail, data, ready, _⟩ := f
  cases ready <;> rfl

/-- A payload that is taken moves from those that wait to those given away. -/
theorem HasRead.next {f : Framer} {stream : Bytes} {given : List String}
    (h : f.HasRead stream given) : f.next.2.HasRead stream (given ++ f.next.1.toList) := by
  obtain ⟨ended, groups, group, hlines, hgroups, hdata, hready⟩ := h
  have hwaiting : f.ready.head?.toList ++ f.ready.tail = f.ready := by cases f.ready <;> rfl
  rw [next_eq]
  exact ⟨ended, groups, group, hlines, hgroups, hdata, by
    rw [List.append_assoc, hwaiting, hready]⟩

theorem HasRead.drain {f : Framer} {stream : Bytes} {given : List String}
    (h : f.HasRead stream given) : f.drain.2.HasRead stream (given ++ f.drain.1) := by
  obtain ⟨ended, groups, group, hlines, hgroups, hdata, hready⟩ := h
  exact ⟨ended, groups, group, hlines, hgroups, hdata, by simpa [Framer.drain] using hready⟩

theorem HasRead.answer {f : Framer} {stream : Bytes} {given : List String}
    (h : f.HasRead stream given) (call : FramerCall) :
    (f.answer call).2.HasRead (stream ++ call.bytes) (given ++ (f.answer call).1) := by
  cases call with
  | feed piece => simpa [Framer.answer, FramerCall.bytes] using h.feed piece
  | next => simpa [Framer.answer, FramerCall.bytes] using h.next
  | drain => simpa [Framer.answer, FramerCall.bytes] using h.drain
  | flush => simpa [Framer.answer, FramerCall.bytes, flush_eq_feed] using h.feed [0x0A, 0x0A]

theorem HasRead.answerAll {f : Framer} {stream : Bytes} {given : List String}
    (h : f.HasRead stream given) (calls : List FramerCall) :
    (f.answerAll calls).2.HasRead (stream ++ calls.flatMap FramerCall.bytes)
      (given ++ (f.answerAll calls).1) := by
  induction calls generalizing f stream given with
  | nil => simpa [Framer.answerAll] using h
  | cons call calls ih =>
    simpa [Framer.answerAll] using ih (h.answer call)

/-- **Framing.** Whatever the calls and their order, the payloads given away, followed by those that
still wait, are those that the whole stream spells. What no line feed has ended adds nothing until
it is flushed, and flushing is the same as feeding two line feeds. A payload is taken from the front
of those that wait, and nothing waits once all are taken. -/
theorem answerAll_eq_payloads (calls : List FramerCall) :
    (({} : Framer).answerAll calls).1 ++ (({} : Framer).answerAll calls).2.ready =
        EventStream.payloads (calls.flatMap FramerCall.bytes) ∧
      (∀ (f : Framer) (piece : Bytes), 0x0A ∉ piece → (f.feed piece).ready = f.ready) ∧
      (∀ f : Framer, f.flush = f.feed [0x0A, 0x0A]) ∧
      (∀ f : Framer, f.next = (f.ready.head?, { f with ready := f.ready.tail })) ∧
      ∀ f : Framer, f.drain = (f.ready, { f with ready := [] }) := by
  refine ⟨?_, fun f piece h ↦ ?_, flush_eq_feed, next_eq, fun f ↦ rfl⟩
  · have h := hasRead_nil.answerAll calls
    simpa using h.append_ready
  · rw [feed_of_notMem h]

/-- A stream with bytes that are no text, a carriage return before a line feed, a data line without
a colon, and a tail that only the second flush ends. The first payload is taken after the first
flush, and the second waits for the second. -/
theorem answerAll_eq_payloads_mixed :
    let early : List FramerCall :=
      [.feed [0x64, 0x61, 0x74], .next, .feed [0x61, 0x3A, 0x20, 0xFF, 0x0D], .drain,
        .feed [0x0A, 0x64, 0x61, 0x74, 0x61], .flush]
    EventStream.payloads
        [0x64, 0x61, 0x74, 0x61, 0x3A, 0x20, 0xFF, 0x0D, 0x0A, 0x64, 0x61, 0x74, 0x61, 0x0A, 0x0A,
          0x64, 0x61, 0x74, 0x61, 0x3A, 0x78, 0x0A, 0x0A] =
        [String.ofList [Utf8.replacement, '\n'], "x"] ∧
      0x0A ∉ ([0x64, 0x0D] : Bytes) ∧ (({} : Framer).feed [0x64, 0x0D]).ready = [] ∧
      (({} : Framer).answerAll early).2.next.1 =
        some (String.ofList [Utf8.replacement, '\n']) := by
  intro early
  have h := answerAll_eq_payloads
    (early ++ [.next, .feed [0x64, 0x61, 0x74, 0x61, 0x3A, 0x78], .next, .flush])
  obtain ⟨hspelled, hopen, -, hnext, -⟩ := h
  refine ⟨Eq.trans hspelled.symm (by decide +kernel), by decide, ?_, ?_⟩
  · exact hopen {} [0x64, 0x0D] (by decide)
  · rw [hnext]
    decide +kernel

end Framer

end AgentSession
