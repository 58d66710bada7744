import AgentSession.Framing.Line
import AgentSession.Text.Utf8
/-!
# Framing an event stream

A framer turns bytes, in whatever pieces they arrive, into the payloads of the events they spell.
It keeps the bytes of the line that has not ended. A piece is put behind them, and then the lines
that have ended are taken from the front, one after the other. A line ends at a line feed, and a
carriage return just before that belongs to its end; the text of a line is read with replacement
characters for what is no UTF-8. The payload of an event is the values of its data lines, joined by
line feeds; an event without data lines, or whose payload is empty, is no event.

What a framer keeps has no line feed in it, which is part of its type. So no line is left to take
between two pieces, and how the bytes are cut makes no difference: `Framer.feed_append`. With pieces
of a single byte, feeding is a left fold over the bytes: `Framer.feed_eq_foldl_step`.
-/

namespace AgentSession

namespace Framer

def lineFeed : UInt8 := 10

def carriageReturn : UInt8 := 13

end Framer

/-- A framer between two pieces. -/
@[ext]
structure Framer where
  /-- The bytes of the line that has not ended. -/
  tail : Bytes := []
  /-- The data lines of the event that has not ended, oldest first. -/
  data : List (List Char) := []
  /-- The payloads that nobody has taken, oldest first. -/
  ready : List String := []
  lineFeed_notMem : Framer.lineFeed ∉ tail := by exact List.not_mem_nil
deriving DecidableEq, Repr

namespace Framer

/-- The bytes of a line without its carriage return. -/
def lineBytes (line : Bytes) : Bytes :=
  if [carriageReturn].isSuffixOf line then line.dropLast else line

/-- The payload of data lines. -/
def payload (data : List (List Char)) : String := String.ofList (['\n'].intercalate data)

def endEvent (f : Framer) : Framer :=
  if payload f.data = "" then { f with data := [] }
  else { f with data := [], ready := f.ready ++ [payload f.data] }

def takeLine (f : Framer) : Line → Framer
  | .blank => f.endEvent
  | .data value => { f with data := f.data ++ [value] }
  | .ignored => f

/-- Takes a line that has ended, given without its line feed. -/
def endLine (f : Framer) (line : Bytes) : Framer :=
  f.takeLine (Line.read (Utf8.lossy (lineBytes line)))

/-- Takes the lines that end within a buffer, from the front, and keeps what stands after the last
of them. -/
def takeLines (f : Framer) (buffer : Bytes) : Framer :=
  match h : buffer.idxOf? lineFeed with
  | some offset => (f.endLine (buffer.take offset)).takeLines (buffer.drop (offset + 1))
  | none => { f with tail := buffer, lineFeed_notMem := List.idxOf?_eq_none_iff.1 h }
termination_by buffer.length
decreasing_by
  cases buffer with
  | nil => cases h
  | cons b buffer => simp only [List.drop_succ_cons, List.length_drop, List.length_cons]; omega

def feed (f : Framer) (bytes : Bytes) : Framer := f.takeLines (f.tail ++ bytes)

/-- A framer that keeps no bytes. -/
def withoutTail (f : Framer) : Framer := { f with tail := [], lineFeed_notMem := List.not_mem_nil }

@[simp] theorem withoutTail_tail (f : Framer) : f.withoutTail.tail = [] := rfl

@[simp] theorem withoutTail_data (f : Framer) : f.withoutTail.data = f.data := rfl

@[simp] theorem withoutTail_ready (f : Framer) : f.withoutTail.ready = f.ready := rfl

theorem withoutTail_of_tail_eq_nil {f : Framer} (h : f.tail = []) : f.withoutTail = f :=
  Framer.ext h.symm rfl rfl

/-- Ends whatever is in progress, as at the end of the stream: a line that has not ended counts as
ended, and so does the event. -/
def flush (f : Framer) : Framer :=
  match f.tail with
  | [] => f.endEvent
  | line => (f.withoutTail.endLine line).endEvent

def next (f : Framer) : Option String × Framer :=
  match f.ready with
  | [] => (none, f)
  | payload :: ready => (some payload, { f with ready })

def drain (f : Framer) : List String × Framer := (f.ready, { f with ready := [] })

/-- The payloads of a whole stream. -/
def payloads (bytes : Bytes) : List String := (({} : Framer).feed bytes).flush.ready

/-! ## Taking lines -/

section Lines

variable {f : Framer} {buffer line rest : Bytes}

theorem takeLines_of_notMem (h : lineFeed ∉ buffer) :
    f.takeLines buffer = { f with tail := buffer, lineFeed_notMem := h } := by
  rw [takeLines]
  split
  · rename_i hsome
    cases (List.idxOf?_eq_none_iff.2 h).symm.trans hsome
  · rfl

/-- The first line feed stands where the line in front of it ends. -/
theorem idxOf?_append_cons (h : lineFeed ∉ line) :
    (line ++ lineFeed :: rest).idxOf? lineFeed = some line.length := by
  have hline : line.findIdx? (· == lineFeed) = none := List.idxOf?_eq_none_iff.2 h
  rw [List.idxOf?, List.findIdx?_append, hline, List.findIdx?_cons, if_pos (beq_self_eq_true _)]
  simp

theorem takeLines_append_cons (h : lineFeed ∉ line) :
    f.takeLines (line ++ lineFeed :: rest) = (f.endLine line).takeLines rest := by
  rw [takeLines]
  split
  · rename_i hsome
    obtain rfl := Option.some.inj ((idxOf?_append_cons h).symm.trans hsome)
    simp
  · rename_i hnone
    cases (idxOf?_append_cons h).symm.trans hnone

/-- A buffer has no line feed, or it is a line, its line feed and a shorter buffer. -/
@[elab_as_elim]
theorem lines_induction {motive : Bytes → Prop} (buffer : Bytes)
    (tail : ∀ tail, lineFeed ∉ tail → motive tail)
    (line : ∀ line rest, lineFeed ∉ line → motive rest → motive (line ++ lineFeed :: rest)) :
    motive buffer := by
  induction hlength : buffer.length using Nat.strongRecOn generalizing buffer with
  | _ length ih =>
    by_cases h : lineFeed ∈ buffer
    · obtain ⟨first, rest, rfl, hfirst⟩ := List.eq_append_cons_of_mem h
      have hshorter : rest.length < length := by
        rw [← hlength, List.length_append, List.length_cons]
        omega
      exact line first rest hfirst (ih rest.length hshorter rest rfl)
    · exact tail buffer h

theorem endLine_withoutTail (f : Framer) (line : Bytes) :
    f.withoutTail.endLine line = (f.endLine line).withoutTail := by
  unfold endLine takeLine
  split
  · unfold endEvent withoutTail
    split <;> rfl
  · rfl
  · rfl

/-- What was kept before has no part in taking lines from a buffer. -/
theorem takeLines_withoutTail (f : Framer) (buffer : Bytes) :
    f.withoutTail.takeLines buffer = f.takeLines buffer := by
  induction buffer using lines_induction generalizing f with
  | tail buffer h => rw [takeLines_of_notMem h, takeLines_of_notMem h]; rfl
  | line line rest h ih =>
    rw [takeLines_append_cons h, takeLines_append_cons h, endLine_withoutTail, ih]

/-- Lines may be taken before the rest of the buffer is there. -/
theorem takeLines_append (f : Framer) (a b : Bytes) :
    f.takeLines (a ++ b) = (f.takeLines a).feed b := by
  induction a using lines_induction generalizing f with
  | tail a h =>
    rw [takeLines_of_notMem h, feed, ← takeLines_withoutTail f]
    exact takeLines_withoutTail { f with tail := a, lineFeed_notMem := h } (a ++ b)
  | line line rest h ih =>
    rw [List.append_assoc, List.cons_append, takeLines_append_cons h, ih, takeLines_append_cons h]

end Lines

/-- Pieces fed one after the other are as good as one. -/
theorem feed_append (f : Framer) (a b : Bytes) : f.feed (a ++ b) = (f.feed a).feed b := by
  rw [feed, ← List.append_assoc]
  exact takeLines_append f (f.tail ++ a) b

@[simp] theorem feed_nil (f : Framer) : f.feed [] = f := by
  rw [feed, List.append_nil, takeLines_of_notMem f.lineFeed_notMem]

/-! ## One byte at a time -/

/-- Reads one byte. -/
def step (f : Framer) (b : UInt8) : Framer :=
  if h : b = lineFeed then f.withoutTail.endLine f.tail
  else { f with
    tail := f.tail ++ [b]
    lineFeed_notMem := by simp [f.lineFeed_notMem, Ne.symm h] }

theorem step_lineFeed (f : Framer) : f.step lineFeed = f.withoutTail.endLine f.tail := dif_pos rfl

theorem feed_singleton (f : Framer) (b : UInt8) : f.feed [b] = f.step b := by
  by_cases hb : b = lineFeed
  · rw [hb, step_lineFeed, feed, takeLines_append_cons f.lineFeed_notMem,
      takeLines_of_notMem List.not_mem_nil, endLine_withoutTail, withoutTail]
  · rw [step, dif_neg hb]
    exact takeLines_of_notMem _

theorem feed_cons (f : Framer) (b : UInt8) (bytes : Bytes) :
    f.feed (b :: bytes) = (f.step b).feed bytes := by
  rw [← feed_singleton, ← feed_append, List.singleton_append]

/-- Feeding a piece is reading its bytes one after the other. -/
theorem feed_eq_foldl_step (f : Framer) (bytes : Bytes) : f.feed bytes = bytes.foldl step f := by
  induction bytes generalizing f with
  | nil => exact feed_nil f
  | cons b bytes ih => rw [feed_cons, ih, List.foldl_cons]

end Framer

/-! ## Streams that may fail -/

/-- The payloads of a stream of pieces, each handed on as soon as it is complete. A failure is
handed on and ends the stream, without what is in progress; the end of the pieces flushes it. -/
def Framer.stream (f : Framer) {ε : Type} : List (Except ε Bytes) → List (Except ε String)
  | [] => (f.flush.drain.1).map .ok
  | .error e :: _ => [.error e]
  | .ok bytes :: pieces =>
    let (ready, f) := (f.feed bytes).drain
    ready.map .ok ++ f.stream pieces

end AgentSession
