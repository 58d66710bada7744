import AgentSession.Proofs.Session.Interleaving
import Mathlib.Data.List.DropRight
/-!
# Open streams

Streams need not be well formed: a start may be missing or come twice, and pieces may come late. In
any history, a stream is open if the last start or end of it was a start (`History.isOpen`), and
what has been gathered of it are its pieces since then (`History.gathered?`). This module says what
one more event does to that.

An event of another stream does nothing to it. A start opens the stream with nothing gathered, an
end closes it, and a piece is added to what has been gathered if the stream is open.

Thinking messages have no identifiers on the wire, and a start takes the place of an earlier one. So
thinking is one stream, for which only its starts and ends are counted (`History.ThinkingOpen`).
-/

namespace AgentSession

namespace EventKind

def isStart : EventKind → Bool
  | .textMessageStart _ _ | .toolCallStart _ _ _ => true
  | _ => false

def isEnd : EventKind → Bool
  | .textMessageEnd _ | .toolCallEnd _ => true
  | _ => false

/-- It starts or ends a stream. -/
def isBound (k : EventKind) : Bool := k.isStart || k.isEnd

/-- The piece that it adds to its stream. -/
def delta? : EventKind → Option String
  | .textMessageContent _ delta | .toolCallArgs _ delta => some delta
  | _ => none

/-- It starts or ends a thinking message. -/
def isThinkingBound : EventKind → Bool
  | .thinkingTextMessageStart | .thinkingTextMessageEnd => true
  | _ => false

variable {k : EventKind} {delta : String}

theorem isBound_of_isStart (hk : k.isStart = true) : k.isBound = true := by
  rw [isBound, hk, Bool.true_or]

theorem isBound_of_isEnd (hk : k.isEnd = true) : k.isBound = true := by
  rw [isBound, hk, Bool.or_true]

theorem isStart_of_isEnd (hk : k.isEnd = true) : k.isStart = false := by
  cases k <;> first | rfl | cases hk

theorem isBound_of_delta? (hk : k.delta? = some delta) : k.isBound = false := by
  cases k <;> first | rfl | cases hk

end EventKind

namespace History

/-- The last start or end of a stream was a start. -/
def isOpen (h : History) (key : StreamKey) : Bool :=
  ((h.about key).filter EventKind.isBound).getLast?.any EventKind.isStart

/-- The pieces of a stream since its last start or end, in their order. -/
def sinceBound (h : History) (key : StreamKey) : List String :=
  ((h.about key).rtakeWhile fun k ↦ !k.isBound).filterMap EventKind.delta?

/-- What has been gathered of a stream, if it is open. -/
def gathered? (h : History) (key : StreamKey) : Option String :=
  if h.isOpen key then some (String.join (h.sinceBound key)) else none

/-- The last start or end of a thinking message was a start. -/
def ThinkingOpen (h : History) : Prop :=
  (h.filter EventKind.isThinkingBound).getLast? = some .thinkingTextMessageStart

/-- Everything that was started was ended. -/
def AllEnded (h : History) : Prop := (∀ key, h.isOpen key = false) ∧ ¬h.ThinkingOpen

/-- The text that is to be shown together with a piece or an end: what has been gathered of the
stream, with the piece or before the end, and nothing if the stream is not open. -/
def shown? (h : History) (k : EventKind) : Option String :=
  match k with
  | .textMessageContent id _ => some (((h ++ [k]).gathered? (.text id)).getD "")
  | .toolCallArgs callId _ => some (((h ++ [k]).gathered? (.call callId)).getD "")
  | .textMessageEnd id => some ((h.gathered? (.text id)).getD "")
  | .toolCallEnd callId => some ((h.gathered? (.call callId)).getD "")
  | _ => none

variable {h : History} {k : EventKind} {key : StreamKey}

theorem gathered?_eq_none_iff : h.gathered? key = none ↔ h.isOpen key = false := by
  rw [gathered?]
  cases h.isOpen key with
  | true => simp
  | false => simp

/-- A stream that was never heard of is not open. -/
theorem isOpen_eq_false_of_forall_key?_ne (hkey : ∀ k ∈ h, k.key? ≠ some key) :
    h.isOpen key = false := by
  have hnone : h.about key = [] := by
    refine List.filter_eq_nil_iff.2 fun k hk ↦ ?_
    simpa using hkey k hk
  rw [isOpen, hnone]
  rfl

/-! ## One more event -/

theorem about_concat_self (hk : k.key? = some key) :
    (h ++ [k]).about key = h.about key ++ [k] := by
  rw [about, List.filter_append, List.filter_singleton, decide_eq_true hk, cond_true, about]

theorem about_concat_of_ne (hk : k.key? ≠ some key) : (h ++ [k]).about key = h.about key := by
  rw [about, List.filter_append, List.filter_singleton, decide_eq_false hk, cond_false,
    List.append_nil, about]

theorem gathered?_concat_of_ne (hk : k.key? ≠ some key) :
    (h ++ [k]).gathered? key = h.gathered? key := by
  rw [gathered?, isOpen, sinceBound, about_concat_of_ne hk, gathered?, isOpen, sinceBound]

theorem isOpen_concat_bound (hk : k.key? = some key) (hbound : k.isBound = true) :
    (h ++ [k]).isOpen key = k.isStart := by
  rw [isOpen, about_concat_self hk, List.filter_append, List.filter_singleton, hbound, cond_true,
    List.getLast?_concat, Option.any_some]

theorem sinceBound_concat_bound (hk : k.key? = some key) (hbound : k.isBound = true) :
    (h ++ [k]).sinceBound key = [] := by
  rw [sinceBound, about_concat_self hk, List.rtakeWhile_concat_neg _ _ _ (by simp [hbound]),
    List.filterMap_nil]

theorem gathered?_concat_start (hk : k.key? = some key) (hstart : k.isStart = true) :
    (h ++ [k]).gathered? key = some "" := by
  have hbound := EventKind.isBound_of_isStart hstart
  rw [gathered?, isOpen_concat_bound hk hbound, if_pos hstart, sinceBound_concat_bound hk hbound]
  rfl

theorem gathered?_concat_end (hk : k.key? = some key) (hend : k.isEnd = true) :
    (h ++ [k]).gathered? key = none := by
  rw [gathered?_eq_none_iff, isOpen_concat_bound hk (EventKind.isBound_of_isEnd hend)]
  exact EventKind.isStart_of_isEnd hend

theorem gathered?_concat_delta (hk : k.key? = some key) {delta : String}
    (hdelta : k.delta? = some delta) :
    (h ++ [k]).gathered? key = (h.gathered? key).map (· ++ delta) := by
  have hbound := EventKind.isBound_of_delta? hdelta
  have hopen : (h ++ [k]).isOpen key = h.isOpen key := by
    rw [isOpen, about_concat_self hk, List.filter_append, List.filter_singleton, hbound, cond_false,
      List.append_nil, isOpen]
  have hsince : (h ++ [k]).sinceBound key = h.sinceBound key ++ [delta] := by
    rw [sinceBound, about_concat_self hk, List.rtakeWhile_concat_pos _ _ _ (by simp [hbound]),
      filterMap_concat, hdelta, sinceBound]
    rfl
  have hjoin : String.join (h.sinceBound key ++ [delta]) =
      String.join (h.sinceBound key) ++ delta := join_concat _ (some delta)
  rw [gathered?, gathered?, hopen, hsince, hjoin]
  cases h.isOpen key with
  | true => rfl
  | false => rfl

/-! ## Thinking messages -/

theorem thinkingOpen_concat (hk : k.isThinkingBound = false) :
    (h ++ [k]).ThinkingOpen ↔ h.ThinkingOpen := by
  rw [ThinkingOpen, List.filter_append, List.filter_singleton, hk, cond_false, List.append_nil,
    ThinkingOpen]

theorem thinkingOpen_concat_start (h : History) :
    ThinkingOpen (h ++ [.thinkingTextMessageStart]) := by
  rw [ThinkingOpen, List.filter_append]
  exact List.getLast?_concat

theorem not_thinkingOpen_concat_end (h : History) :
    ¬ThinkingOpen (h ++ [.thinkingTextMessageEnd]) := by
  have hlast : (List.filter EventKind.isThinkingBound
      (h ++ [.thinkingTextMessageEnd])).getLast? = some .thinkingTextMessageEnd := by
    rw [List.filter_append]
    exact List.getLast?_concat
  rw [ThinkingOpen, hlast]
  nofun

end History

/-! ## Tables of what has been gathered -/

namespace Dict

variable {d d' : Dict String}

theorem get?_appendText (d : Dict String) (key delta other : String) :
    (d.appendText key delta).2.get? other =
      if key = other then (d.get? key).map (· ++ delta) else d.get? other := by
  unfold appendText
  cases hkey : d.get? key with
  | some text => exact get?_insert d key (text ++ delta) other
  | none =>
    by_cases hother : key = other
    · rw [if_pos hother, ← hother]
      exact hkey
    · rw [if_neg hother]

theorem appendText_fst (d : Dict String) (key delta : String) :
    (d.appendText key delta).1 = ((d.get? key).map (· ++ delta)).getD "" := by
  unfold appendText
  cases d.get? key with
  | some text => rfl
  | none => rfl

theorem Sorted.appendText (h : d.Sorted) (key delta : String) :
    (d.appendText key delta).2.Sorted := by
  unfold Dict.appendText
  cases d.get? key with
  | some text => exact h.insert key (text ++ delta)
  | none => exact h

theorem has_appendText (d : Dict String) (key delta other : String) :
    (d.appendText key delta).2.has other = d.has other := by
  rw [has, get?_appendText, has]
  split
  · rename_i hother
    rw [hother, Option.isSome_map]
  · rfl

/-- Outside of some keys, a table holds what has been gathered of the open streams of one sort,
which `stream` makes of its keys. -/
structure Gathers (d : Dict String) (h : History) (stream : String → StreamKey)
    (except : List String) : Prop where
  sorted : d.Sorted
  get?_eq : ∀ key, key ∉ except → d.get? key = h.gathered? (stream key)

namespace Gathers

variable {h : History} {k : EventKind} {stream : String → StreamKey} {except except' : List String}
  {key : String}

/-- An event of other streams changes nothing. -/
theorem other (hd : d.Gathers h stream except) (hk : ∀ key, k.key? ≠ some (stream key)) :
    d.Gathers (h ++ [k]) stream except where
  sorted := hd.sorted
  get?_eq key hkey := by
    rw [hd.get?_eq key hkey, History.gathered?_concat_of_ne (hk key)]

/-- What is done to a table under some keys does not matter outside of them. -/
theorem mono (hd : d.Gathers h stream except) (hsorted : d'.Sorted) (hsub : except ⊆ except')
    (hd' : ∀ key, key ∉ except' → d'.get? key = d.get? key) : d'.Gathers h stream except' where
  sorted := hsorted
  get?_eq key hkey := by
    rw [hd' key hkey, hd.get?_eq key fun hmem ↦ hkey (hsub hmem)]

/-- An event of one stream changes what is held of that stream, and nothing else. -/
theorem change (hstream : stream.Injective) (hd : d.Gathers h stream except)
    (hk : k.key? = some (stream key)) (hsorted : d'.Sorted) {value : Option String}
    (hd' : ∀ other, d'.get? other = if key = other then value else d.get? other)
    (hvalue : key ∉ except → value = (h ++ [k]).gathered? (stream key)) :
    d'.Gathers (h ++ [k]) stream except where
  sorted := hsorted
  get?_eq other hother := by
    rw [hd' other]
    split
    · rename_i heq
      subst heq
      exact hvalue hother
    · rename_i hne
      -- another key is another stream, of which the event says nothing
      have hkey : k.key? ≠ some (stream other) := by
        intro heq
        exact hne (hstream (Option.some.inj (hk.symm.trans heq)))
      rw [hd.get?_eq other hother, History.gathered?_concat_of_ne hkey]

theorem start (hstream : stream.Injective) (hd : d.Gathers h stream except)
    (hk : k.key? = some (stream key)) (hstart : k.isStart = true) :
    (d.insert key "").Gathers (h ++ [k]) stream except := by
  refine hd.change hstream hk (hd.sorted.insert key "") (get?_insert d key "") fun _ ↦ ?_
  rw [History.gathered?_concat_start hk hstart]

theorem delta (hstream : stream.Injective) (hd : d.Gathers h stream except)
    (hk : k.key? = some (stream key)) {delta : String} (hdelta : k.delta? = some delta) :
    (d.appendText key delta).2.Gathers (h ++ [k]) stream except := by
  refine hd.change hstream hk (hd.sorted.appendText key delta) (get?_appendText d key delta)
    fun hkey ↦ ?_
  rw [hd.get?_eq key hkey, History.gathered?_concat_delta hk hdelta]

theorem close (hstream : stream.Injective) (hd : d.Gathers h stream except)
    (hk : k.key? = some (stream key)) (hend : k.isEnd = true) :
    (d.closeText key).2.Gathers (h ++ [k]) stream except := by
  refine hd.change hstream hk (hd.sorted.erase key) (hd.sorted.get?_erase key) fun _ ↦ ?_
  rw [History.gathered?_concat_end hk hend]

theorem appendText_fst_eq (hd : d.Gathers h stream except) (hkey : key ∉ except)
    (hk : k.key? = some (stream key)) {delta : String} (hdelta : k.delta? = some delta) :
    (d.appendText key delta).1 = ((h ++ [k]).gathered? (stream key)).getD "" := by
  rw [appendText_fst, hd.get?_eq key hkey, History.gathered?_concat_delta hk hdelta]

theorem closeText_fst_eq (hd : d.Gathers h stream except) (hkey : key ∉ except) :
    (d.closeText key).1 = (h.gathered? (stream key)).getD "" := by
  rw [closeText, hd.get?_eq key hkey]

end Gathers

end Dict

end AgentSession
