import AgentSession.Proofs.Framing.Grammar
/-!
# Framing piece by piece

`Framer.stream` hands every payload on as soon as a piece completes it. What it hands on is what the
bytes of all pieces spell: up to a failure, what has been completed by then
(`Framer.stream_failing`), and otherwise also what the end of the stream completes
(`Framer.stream_map_ok`). Every stream is of one of these two kinds (`Framer.stream_cases`).

Handing payloads on does not change what the framer reads afterwards, as payloads that wait are
never looked at (`Framer.feed_behind`).
-/

namespace AgentSession

namespace Framer

variable {ε : Type} {f : Framer}

theorem behind_ready_drain (f : Framer) : f.drain.2.behind f.ready = f := by
  rw [drain, behind, List.append_nil]

/-- The payloads that two pieces complete are those of the first, and those of the second once the
first are handed on. -/
theorem ready_feed_append (f : Framer) (p q : Bytes) :
    (f.feed (p ++ q)).ready = (f.feed p).ready ++ ((f.feed p).drain.2.feed q).ready := by
  have hfeed := (f.feed p).drain.2.feed_behind (f.feed p).ready q
  rw [behind_ready_drain] at hfeed
  rw [feed_append, hfeed]
  rfl

/-- Handing payloads on after every piece is handing them on after the last, when what comes next is
read by the same framer. -/
theorem stream_append (h : f.ready = []) (pieces : List Bytes) (rest : List (Except ε Bytes)) :
    f.stream (pieces.map .ok ++ rest) =
      (f.feed pieces.flatten).ready.map .ok ++ (f.feed pieces.flatten).drain.2.stream rest := by
  induction pieces generalizing f with
  | nil =>
    have hdrain : f.drain.2 = f := by rw [drain, ← h]
    rw [List.flatten_nil, feed_nil, h, hdrain]
    rfl
  | cons piece pieces ih =>
    have hstream : f.stream ((piece :: pieces).map .ok ++ rest) =
        (f.feed piece).ready.map .ok ++
          (f.feed piece).drain.2.stream (pieces.map .ok ++ rest) := rfl
    have hfeed := (f.feed piece).drain.2.feed_behind (f.feed piece).ready pieces.flatten
    rw [behind_ready_drain] at hfeed
    rw [hstream, ih rfl, ← List.append_assoc, ← List.map_append, List.flatten_cons,
      ready_feed_append, feed_append, hfeed]
    rfl

/-- The payloads that wait once bytes have been read are those that the bytes spell. -/
theorem ready_feed_eq_payloads (bytes : Bytes) :
    (({} : Framer).feed bytes).ready = EventStream.payloads bytes :=
  (hasRead_nil.feed bytes).append_ready

/-- The end of a stream ends what is in progress, as two line feeds do. -/
theorem payloads_eq (bytes : Bytes) :
    payloads bytes = EventStream.payloads (bytes ++ [0x0A, 0x0A]) := by
  rw [payloads, flush_eq_feed, ← feed_append, ready_feed_eq_payloads]

/-- A failure ends the stream, and what is in progress is not handed on. -/
theorem stream_failing (pieces : List Bytes) (e : ε) (later : List (Except ε Bytes)) :
    ({} : Framer).stream (pieces.map .ok ++ .error e :: later) =
      (EventStream.payloads pieces.flatten).map .ok ++ [.error e] := by
  rw [stream_append rfl, ready_feed_eq_payloads]
  rfl

/-- The payloads of a stream are those of its bytes in one piece. -/
theorem stream_map_ok (f : Framer) (pieces : List Bytes) :
    f.stream (pieces.map (Except.ok (ε := ε))) = (f.feed pieces.flatten).flush.ready.map .ok := by
  induction pieces generalizing f with
  | nil =>
    rw [List.flatten_nil, feed_nil]
    rfl
  | cons piece pieces ih =>
    have hrest := ih (f.feed piece).drain.2
    calc f.stream (Except.ok piece :: pieces.map .ok)
        = (f.feed piece).ready.map .ok ++ (f.feed piece).drain.2.stream (pieces.map .ok) := rfl
      _ = (((f.feed piece).drain.2.feed pieces.flatten).flush.behind
            (f.feed piece).ready).ready.map .ok := by rw [hrest, behind, List.map_append]
      _ = ((f.feed piece).feed pieces.flatten).flush.ready.map .ok := by
          rw [← flush_behind, ← feed_behind, behind_ready_drain]
      _ = (f.feed (piece :: pieces).flatten).flush.ready.map .ok := by
          rw [List.flatten_cons, feed_append]

/-- A stream either ends after some pieces or fails after some. -/
theorem stream_cases (arrivals : List (Except ε Bytes)) :
    (∃ pieces : List Bytes, arrivals = pieces.map .ok) ∨
      ∃ (pieces : List Bytes) (e : ε) (later : List (Except ε Bytes)),
        arrivals = pieces.map .ok ++ .error e :: later := by
  induction arrivals with
  | nil => exact .inl ⟨[], rfl⟩
  | cons arrival arrivals ih =>
    cases arrival with
    | error e => exact .inr ⟨[], e, arrivals, rfl⟩
    | ok piece =>
      rcases ih with ⟨pieces, rfl⟩ | ⟨pieces, e, later, rfl⟩
      · exact .inl ⟨piece :: pieces, rfl⟩
      · exact .inr ⟨piece :: pieces, e, later, rfl⟩

end Framer

end AgentSession
