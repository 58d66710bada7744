import AgentSession.Proofs.Framing.Stream
import AgentSession.Proofs.Text.Cut
import AgentSession.Proofs.Text.Parts
/-!
# Text before lines, or lines before text

A framer cuts the bytes into lines and reads each line as text by itself. One may as well read all
bytes as text first, write this text down again and cut what is written
(`Framer.payloads_encode_lossy`): a line feed and a carriage return are bytes below `0x80`, so no
invalid part reaches across them, and none of them comes out of other bytes.
-/

namespace AgentSession

open Utf8 (lossy encode)

variable {line : Bytes}

/-! ## Bytes that stay -/

theorem encode_lossy_append_cons {b : UInt8} (hb : b < 0x80) (bytes rest : Bytes) :
    encode (lossy (bytes ++ b :: rest)) = encode (lossy bytes) ++ b :: encode (lossy rest) := by
  have hchar : String.utf8EncodeChar (Char.ofNat b.toNat) = [b] := by
    have hsmall : b.toNat < 128 := hb
    rw [Utf8.encodeChar_ofNat_one hsmall, UInt8.ofNat_toNat]
  rw [Utf8.lossy_append_cons bytes hb, Utf8.encode_append, encode, encode, encode,
    List.flatMap_cons, hchar, List.singleton_append]

/-! ## Line feeds -/

/-- What can be done before or after a separator can be done between all of them. -/
theorem map_intercalate {α : Type} {f : List α → List α} {sep : α}
    (h : ∀ l r, f (l ++ sep :: r) = f l ++ sep :: f r) {parts : List (List α)} (hne : parts ≠ []) :
    f ([sep].intercalate parts) = [sep].intercalate (parts.map f) := by
  induction parts with
  | nil => exact absurd rfl hne
  | cons part parts ih =>
    cases parts with
    | nil => rw [List.map_singleton, List.intercalate_singleton, List.intercalate_singleton]
    | cons next parts =>
      rw [List.intercalate_cons_cons, List.append_assoc, List.singleton_append, h,
        ih (List.cons_ne_nil _ _), List.map_cons, List.map_cons, List.map_cons,
        List.intercalate_cons_cons, List.append_assoc, List.singleton_append]

theorem lineFeed_notMem_encode_lossy (h : 0x0A ∉ line) : 0x0A ∉ encode (lossy line) := by
  intro hmem
  have hchar : '\n' ∈ lossy line := Utf8.mem_of_mem_encode (by decide) hmem
  obtain ⟨before, after, heq⟩ := List.append_of_mem hchar
  obtain ⟨front, rest, rfl, -⟩ := Utf8.exists_of_lossy_eq heq (by decide)
  exact h (List.mem_append_right front (List.mem_append_left rest (by decide)))

/-- Reading a whole stream as text leaves its line feeds where they are. -/
theorem splitOn_encode_lossy (stream : Bytes) :
    (encode (lossy stream)).splitOn 0x0A =
      (stream.splitOn 0x0A).map fun line ↦ encode (lossy line) := by
  have hne := List.splitOn_ne_nil 0x0A stream
  have hline : (0x0A : UInt8) < 0x80 := by decide
  have hstream := map_intercalate (f := fun bytes ↦ encode (lossy bytes))
    (encode_lossy_append_cons hline) hne
  rw [List.intercalate_splitOn] at hstream
  rw [hstream]
  refine List.splitOn_intercalate 0x0A (fun part hpart ↦ ?_) (by simp)
  obtain ⟨line, hline, rfl⟩ := List.mem_map.1 hpart
  exact lineFeed_notMem_encode_lossy (Text.notMem_of_mem_splitOn hline)

/-! ## Carriage returns -/

theorem chomp_concat (line : Bytes) : EventStream.chomp (line ++ [0x0D]) = line := by
  rw [EventStream.chomp, if_pos (by simp), List.dropLast_concat]

theorem chomp_of_getLast? (h : line.getLast? ≠ some 0x0D) : EventStream.chomp line = line :=
  if_neg h

/-- Only the last character of a text makes the last byte of what is written for it. -/
theorem getLast?_of_getLast?_encode {text : List Char} {b : UInt8} (hb : b < 0x80)
    (h : (encode text).getLast? = some b) : text.getLast? = some (Char.ofNat b.toNat) := by
  rcases List.eq_nil_or_concat text with rfl | ⟨before, c, rfl⟩
  · cases h
  · rw [List.concat_eq_append] at h ⊢
    have hlast : (encode [c]).getLast? = some b := by
      have hne : encode [c] ≠ [] := by
        rw [encode, List.flatMap_singleton]
        exact Utf8.encodeChar_ne_nil c
      rw [Utf8.encode_append, List.getLast?_append, List.getLast?_eq_some_getLast hne,
        Option.some_or] at h
      rw [List.getLast?_eq_some_getLast hne, h]
    have hmem := Utf8.mem_of_mem_encode hb (List.mem_of_getLast? hlast)
    rw [List.getLast?_concat, List.mem_singleton.1 hmem]

theorem getLast?_encode_lossy (h : line.getLast? ≠ some 0x0D) :
    (encode (lossy line)).getLast? ≠ some 0x0D := by
  intro hlast
  obtain ⟨before, hbefore⟩ :=
    List.getLast?_eq_some_iff.1 (getLast?_of_getLast?_encode (by decide) hlast)
  obtain ⟨front, rest, rfl, hrest⟩ := Utf8.exists_of_lossy_eq hbefore (by decide)
  rw [Utf8.lossy_eq_nil_iff.1 hrest] at h
  exact h List.getLast?_concat

/-- Reading a line as text leaves a carriage return at its end, and puts none there. -/
theorem chomp_encode_lossy (line : Bytes) :
    EventStream.chomp (encode (lossy line)) = encode (lossy (EventStream.chomp line)) := by
  by_cases h : line.getLast? = some 0x0D
  · obtain ⟨line, rfl⟩ := List.getLast?_eq_some_iff.1 h
    rw [encode_lossy_append_cons (by decide), chomp_concat]
    exact chomp_concat _
  · rw [chomp_of_getLast? h, chomp_of_getLast? (getLast?_encode_lossy h)]

/-- A line that is read as text is read again as the same text. -/
theorem text_encode_lossy (line : Bytes) :
    EventStream.text (encode (lossy line)) = EventStream.text line := by
  rw [EventStream.text, chomp_encode_lossy, Utf8.lossy_encode, EventStream.text]

/-! ## Payloads -/

theorem eventPayloads_encode_lossy (stream : Bytes) :
    EventStream.payloads (encode (lossy stream)) = EventStream.payloads stream := by
  have hlines : EventStream.lines (encode (lossy stream)) = EventStream.lines stream := by
    rw [EventStream.lines, splitOn_encode_lossy, ← List.map_dropLast, List.map_map]
    exact List.map_congr_left fun line _ ↦ text_encode_lossy line
  rw [EventStream.payloads, hlines, EventStream.payloads]

/-- **Decoding by lines.** Every byte sequence has one cut into characters and invalid parts that
are as long as they can be. The text of the whole shows each character of this cut, and one
replacement character for each invalid part. The bytes of this text spell the same payloads as the
byte sequence, of which only the lines are read as text. -/
theorem Framer.payloads_encode_lossy (bytes : Bytes) :
    ∃ parts, (∀ others, Utf8.Cuts bytes others ↔ others = parts) ∧
      lossy bytes = parts.map (·.getD Utf8.replacement) ∧
      Framer.payloads (encode (lossy bytes)) = Framer.payloads bytes := by
  refine ⟨Utf8.parts bytes, fun others ↦ Utf8.cuts_iff, rfl, ?_⟩
  have hend : encode (lossy bytes) ++ [0x0A, 0x0A] = encode (lossy (bytes ++ [0x0A, 0x0A])) := by
    rw [encode_lossy_append_cons (by decide)]
    rfl
  rw [Framer.payloads_eq, Framer.payloads_eq, hend, eventPayloads_encode_lossy]

end AgentSession
