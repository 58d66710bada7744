import AgentSession.Framing.Body
import AgentSession.Proofs.Framing.Stream
import AgentSession.Proofs.Json.Printer
import AgentSession.Proofs.Text.Utf8
/-!
# Framing a body that was written

A body is written line by line, and a framer reads it line by line again: what stands between two
line ends is one line of the body, because no line of a sound body has a line break in it
(`Framer.feed_line`). The lines of a part are then taken one after the other. A data line gives
back what was written after its space, a comment and a foreign field give nothing, and the blank
line ends the event; so between two parts the framer holds neither a line nor an event
(`BodyPart.foldl_takeLine`).

A stream of pieces may cut all this anywhere, within a character too. That makes no difference: the
payloads of a stream are those of the bytes in one piece (`Framer.stream_map_ok`).
-/

namespace AgentSession

/-- A text without line breaks. -/
def OneLine (s : String) : Prop := '\n' ∉ s.toList ∧ '\r' ∉ s.toList
deriving Decidable

theorem NoControls.oneLine {s : String} (h : NoControls s.toList) : OneLine s :=
  ⟨h.not_mem (by decide), h.not_mem (by decide)⟩

theorem OneLine.append {s t : String} (hs : OneLine s) (ht : OneLine t) : OneLine (s ++ t) := by
  simp only [OneLine, String.toList_append, List.mem_append, not_or]
  exact ⟨⟨hs.1, ht.1⟩, hs.2, ht.2⟩

/-! ## Lines -/

namespace Framer

variable {f : Framer} {line : String} {ending : Bytes}

theorem lineFeed_not_mem_encode (h : OneLine line) : lineFeed ∉ Utf8.encode line.toList :=
  fun hmem ↦ h.1 (Utf8.mem_of_mem_encode (by decide) hmem)

/-- A line is read as it was written, with either line end. -/
theorem lineBytes_encode (h : OneLine line)
    (hending : ending = [lineFeed] ∨ ending = [carriageReturn, lineFeed]) :
    lineBytes (Utf8.encode line.toList ++ ending.dropLast) = Utf8.encode line.toList := by
  rw [lineBytes_eq_chomp, EventStream.chomp]
  rcases hending with rfl | rfl
  · have hlast : (Utf8.encode line.toList).getLast? ≠ some 0x0D := fun hlast ↦
      h.2 (Utf8.mem_of_mem_encode (by decide) (List.mem_of_getLast? hlast))
    rw [List.dropLast_singleton, List.append_nil, if_neg hlast]
  · exact (if_pos List.getLast?_concat).trans List.dropLast_concat

/-- A framer takes a line of a body as what it was written as. -/
theorem feed_line (hf : f.tail = []) (h : OneLine line)
    (hending : ending = [lineFeed] ∨ ending = [carriageReturn, lineFeed]) :
    f.feed (Utf8.encode line.toList ++ ending) = f.takeLine (Line.read line.toList) := by
  have hsplit : ending = ending.dropLast ++ [lineFeed] := by rcases hending with rfl | rfl <;> rfl
  have hopen : lineFeed ∉ Utf8.encode line.toList ++ ending.dropLast := by
    refine List.mem_append.not.2 (not_or.2 ⟨lineFeed_not_mem_encode h, ?_⟩)
    rcases hending with rfl | rfl <;> decide
  have htail : (f.takeLine (Line.read line.toList)).tail = [] := (takeLine_tail f _).trans hf
  rw [hsplit, ← List.append_assoc, feed, hf, List.nil_append, takeLines_append_cons hopen, endLine,
    lineBytes_encode h hending, Utf8.lossy_encode, takeLines_of_notMem List.not_mem_nil]
  exact withoutTail_of_tail_eq_nil htail

theorem feed_lines (hf : f.tail = []) {lines : List String} (h : ∀ line ∈ lines, OneLine line)
    (hending : ending = [lineFeed] ∨ ending = [carriageReturn, lineFeed]) :
    f.feed (lines.flatMap fun line ↦ Utf8.encode line.toList ++ ending) =
      (lines.map fun line ↦ Line.read line.toList).foldl takeLine f := by
  induction lines generalizing f with
  | nil => exact feed_nil f
  | cons line lines ih =>
    obtain ⟨hline, hlines⟩ := List.forall_mem_cons.1 h
    rw [List.flatMap_cons, feed_append, feed_line hf hline hending, List.map_cons,
      List.foldl_cons, ih ((takeLine_tail f _).trans hf) hlines]

end Framer

/-! ## Parts -/

namespace BodyPart

/-- What a body may be written from: everything that is not a document keeps to its line, and a
line that is given as it stands is neither blank nor a data line. -/
def Sound : BodyPart → Prop
  | .event _ => True
  | .lines payload => ∀ line ∈ payload, OneLine line
  | .comment text => OneLine text
  | .raw line => OneLine line ∧ line ≠ "" ∧ EventStream.name line.toList ≠ ['d', 'a', 't', 'a']

instance : DecidablePred Sound
  | .event _ => .isTrue trivial
  | .lines payload => inferInstanceAs (Decidable (∀ line ∈ payload, OneLine line))
  | .comment text => inferInstanceAs (Decidable (OneLine text))
  | .raw line => inferInstanceAs (Decidable (OneLine line ∧ line ≠ "" ∧ _))

/-- The payloads that a part was written to yield. -/
def payloads : BodyPart → List String
  | .event doc => [doc.compact]
  | .lines payload => ["\n".intercalate payload].filter (· ≠ "")
  | .comment _ | .raw _ => []

variable {part : BodyPart}

theorem oneLine_of_mem_render (h : part.Sound) : ∀ line ∈ part.render, OneLine line := by
  have hblank : OneLine "" := by decide
  have hdata {s : String} (hs : OneLine s) : OneLine s!"data: {s}" := .append (by decide) hs
  cases part with
  | event doc =>
    exact List.forall_mem_cons.2
      ⟨hdata doc.noControls_compact.oneLine, List.forall_mem_singleton.2 hblank⟩
  | lines payload =>
    refine List.forall_mem_append.2 ⟨List.forall_mem_map.2 fun s hs ↦ hdata (h s hs), ?_⟩
    exact List.forall_mem_singleton.2 hblank
  | comment text => exact List.forall_mem_singleton.2 (.append (by decide) h)
  | raw line => exact List.forall_mem_singleton.2 h.1

/-- A data line gives back what was written after its space. -/
theorem read_data (s : String) : Line.read (s!"data: {s}").toList = .data s.toList := by
  have htext : (s!"data: {s}").toList = ['d', 'a', 't', 'a', ':', ' '] ++ s.toList :=
    String.toList_append
  rw [htext]
  rfl

theorem read_comment (s : String) : Line.read (s!": {s}").toList = .ignored := by
  have htext : (s!": {s}").toList = [':', ' '] ++ s.toList := String.toList_append
  rw [htext]
  rfl

theorem read_raw {line : String} (h : (raw line).Sound) : Line.read line.toList = .ignored := by
  obtain ⟨-, hne, hname⟩ := h
  have hline : line.toList ≠ [] := String.toList_eq_nil_iff.not.2 hne
  rw [read_eq_contribution hline, EventStream.contribution, if_neg hname]
  rfl

theorem foldl_takeLine_data (f : Framer) (payload : List String) :
    (payload.map fun s ↦ Line.data s.toList).foldl Framer.takeLine f =
      { f with data := f.data ++ payload.map String.toList } := by
  induction payload generalizing f with
  | nil => rw [List.map_nil, List.map_nil, List.append_nil, List.foldl_nil]
  | cons s payload ih =>
    rw [List.map_cons, List.foldl_cons, ih, List.map_cons, List.append_cons]
    rfl

theorem payload_map_toList (payload : List String) :
    Framer.payload (payload.map String.toList) = "\n".intercalate payload := by
  rw [Framer.payload, ← String.toList_inj, String.toList_ofList, String.toList_intercalate]
  rfl

/-- Data lines and a blank line are an event. -/
theorem foldl_takeLine_event (ready payload : List String) :
    (payload.map (fun s : String ↦ Line.data s.toList) ++ [Line.blank]).foldl Framer.takeLine
        { ready } =
      { ready := ready ++ ["\n".intercalate payload].filter (· ≠ "") } := by
  rw [List.foldl_append, foldl_takeLine_data, List.nil_append, List.foldl_cons, List.foldl_nil,
    Framer.takeLine, Framer.endEvent, payload_map_toList]
  by_cases hempty : "\n".intercalate payload = "" <;> simp [hempty]

/-- The lines of a part leave its payloads behind and nothing else. -/
theorem foldl_takeLine (h : part.Sound) (ready : List String) :
    (part.render.map fun line ↦ Line.read line.toList).foldl Framer.takeLine { ready } =
      { ready := ready ++ part.payloads } := by
  have hlines (payload : List String) :
      ((payload.map (fun line ↦ s!"data: {line}") ++ [""]).map fun line ↦ Line.read line.toList) =
        payload.map (fun s ↦ Line.data s.toList) ++ [.blank] := by
    rw [List.map_append, List.map_map, List.map_singleton]
    exact congrArg (· ++ _) (List.map_congr_left fun s _ ↦ read_data s)
  cases part with
  | event doc =>
    -- the document is the only line, and its text is not empty
    have hjoin : "\n".intercalate [doc.compact] = doc.compact := String.intercalate_singleton
    have hkept : [doc.compact].filter (· ≠ "") = [doc.compact] := by simp [doc.compact_ne_empty]
    have hevent := foldl_takeLine_event ready [doc.compact]
    rw [← hlines, hjoin, hkept] at hevent
    exact hevent
  | lines payload =>
    rw [render, hlines]
    exact foldl_takeLine_event ready payload
  | comment text =>
    rw [render, List.map_singleton, read_comment, payloads, List.append_nil]
    rfl
  | raw line =>
    rw [render, List.map_singleton, read_raw h, payloads, List.append_nil]
    rfl

theorem foldl_takeLine_flatMap {parts : List BodyPart} (h : ∀ part ∈ parts, part.Sound)
    (ready : List String) :
    ((parts.flatMap render).map fun line ↦ Line.read line.toList).foldl Framer.takeLine
      { ready } = { ready := ready ++ parts.flatMap payloads } := by
  induction parts generalizing ready with
  | nil => rw [List.flatMap_nil, List.flatMap_nil, List.append_nil, List.map_nil, List.foldl_nil]
  | cons part parts ih =>
    obtain ⟨hpart, hparts⟩ := List.forall_mem_cons.1 h
    rw [List.flatMap_cons, List.map_append, List.foldl_append, foldl_takeLine hpart, ih hparts,
      List.flatMap_cons, List.append_assoc]

end BodyPart

/-! ## Bodies -/

namespace Body

theorem bytes_eq_flatMap (b : Body) :
    b.bytes = (b.parts.flatMap BodyPart.render).flatMap fun line ↦
      Utf8.encode line.toList ++ Utf8.encode b.lineEnd.toList := by
  have hline (line : String) : Utf8.encode (line ++ b.lineEnd).toList =
      Utf8.encode line.toList ++ Utf8.encode b.lineEnd.toList := by
    rw [String.toList_append, Utf8.encode_append]
  rw [← funext hline, bytes, text, String.toList_join, List.flatMap_map, Utf8.encode,
    List.flatMap_assoc]
  rfl

theorem encode_lineEnd (b : Body) :
    Utf8.encode b.lineEnd.toList = [Framer.lineFeed] ∨
      Utf8.encode b.lineEnd.toList = [Framer.carriageReturn, Framer.lineFeed] := by
  rw [lineEnd]
  split
  · exact .inr rfl
  · exact .inl rfl

theorem feed_bytes {b : Body} (h : ∀ part ∈ b.parts, part.Sound) :
    ({} : Framer).feed b.bytes = { ready := b.parts.flatMap BodyPart.payloads } := by
  have hlines : ∀ line ∈ b.parts.flatMap BodyPart.render, OneLine line :=
    List.forall_mem_flatMap.2 fun part hpart ↦ BodyPart.oneLine_of_mem_render (h part hpart)
  rw [bytes_eq_flatMap, Framer.feed_lines rfl hlines b.encode_lineEnd]
  exact BodyPart.foldl_takeLine_flatMap h []

/-- **Framing undoes writing.** A body is written from documents, texts in several lines, comments,
and lines given as they stand. However it is cut, the pieces are as long as they may be and make up
the body, and a stream of them yields the documents and the texts that were written, in order; a
text that is empty is no event. -/
theorem stream_pieces {ε : Type} (b : Body) (size : Nat) (h : ∀ part ∈ b.parts, part.Sound) :
    (b.pieces size).flatten = b.bytes ∧
      (∀ piece ∈ b.pieces size, piece.length ≤ max size 1) ∧
      ({} : Framer).stream ((b.pieces size).map (Except.ok (ε := ε))) =
        (b.parts.flatMap BodyPart.payloads).map .ok := by
  have hflatten : (b.pieces size).flatten = b.bytes := Bytes.flatten_cut size b.bytes
  refine ⟨hflatten, fun piece hpiece ↦ (Bytes.length_of_mem_cut hpiece).2, ?_⟩
  rw [Framer.stream_map_ok, hflatten, feed_bytes h]
  rfl

/-- A body with both kinds of event, one of them empty, with a comment and a foreign field among
them, and with characters that are cut to pieces of a single byte. -/
theorem stream_pieces_cut :
    let b : Body := {
      parts := [.raw "event: message", .event (.obj [("k\n", .str "é\r")]), .comment "data: no",
        .lines ["a: ", "", "😀"], .lines [], .raw "datax"]
      carriageReturns := true }
    (∀ part ∈ b.parts, part.Sound) ∧
      (∀ piece ∈ b.pieces 0, piece.length ≤ 1) ∧
      ({} : Framer).stream ((b.pieces 0).map (Except.ok (ε := Unit))) =
        [.ok "\x7b\"k\\n\":\"é\\r\"\x7d", .ok "a: \n\n😀"] := by
  intro b
  have hsound : ∀ part ∈ b.parts, part.Sound := by decide
  obtain ⟨-, hlength, hstream⟩ := stream_pieces (ε := Unit) b 0 hsound
  exact ⟨hsound, hlength, hstream⟩

end Body

end AgentSession
