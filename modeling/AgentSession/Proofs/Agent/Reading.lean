import AgentSession.Proofs.Agent.Malformed
import AgentSession.Proofs.Agent.Reception
/-!
# Reading a stream of payloads

The events of a stream are told from its payloads, the clock and the policy for malformed payloads
alone (`Running.read`). The moment at which a payload is read decides its time and the identifiers
that it is given, but neither whether it is an event nor of which type (`Running.decode_cases`). So
the events of some types can be deleted from a stream without knowing the clock.

Deleting events leaves the payload that is refused, if one is, where it was
(`Running.read_without_fst`). The others are read at other moments than before, as each event takes
one; on a suitable clock they are the same events (`Running.exists_clock`).
-/

namespace AgentSession

/-! ## Types of payloads -/

namespace Event

/-- The type of the event that a payload is, if it is one. A type that nobody knows makes an event
that passes the document through. -/
def type? (payload : String) : Option EventType :=
  ((Json.parse payload).bind typeName?).map fun name ↦ (EventType.ofName? name).getD .raw

end Event

namespace Running

/-- Whether a payload is an event, and of which type, does not depend on when it is read; neither
does the failure of one that is not. -/
theorem decode_cases (payload : String) :
    (Event.type? payload = none ∧ ∃ failure, ∀ m, decode m payload = .error failure) ∨
      ∃ type, Event.type? payload = some type ∧
        ∀ m, ∃ e, decode m payload = .ok e ∧ e.type = type := by
  unfold Event.type? decode
  cases Json.parse payload with
  | none => exact .inl ⟨rfl, _, fun _ ↦ rfl⟩
  | some doc =>
    rw [Option.bind_some, ← Event.textField?_type]
    cases doc with
    | obj members =>
      simp only [Event.ofJson]
      cases (Json.obj members).textField? ["type"] with
      | none => exact .inl ⟨rfl, _, fun _ ↦ rfl⟩
      | some name => exact .inr ⟨_, rfl, fun m ↦ ⟨_, rfl, Event.type_readKind m name _⟩⟩
    | null | bool | num | str | arr => exact .inl ⟨rfl, _, fun _ ↦ rfl⟩

/-! ## Reading a stream -/

/-- Reads payloads in their order, each event at a moment of its own, up to the first payload that
is refused: its failure, if there is one, and the events before it. -/
def read (policy : MalformedPolicy) (c : Clock) : List String → Option Failure × List Event
  | [] => (none, [])
  | payload :: rest =>
    match decode c.present payload with
    | .ok e =>
      let (refused, events) := read policy c.tick rest
      (refused, e :: events)
    | .error failure =>
      match policy with
      | .skip => read policy c rest
      | .abort => (some failure, [])

variable {policy : MalformedPolicy} {c : Clock} {payload : String} {failure : Failure} {e : Event}

theorem read_of_ok (h : decode c.present payload = .ok e) (rest : List String) :
    read policy c (payload :: rest) =
      ((read policy c.tick rest).1, e :: (read policy c.tick rest).2) := by
  rw [read, h]

theorem read_skip_of_error (h : decode c.present payload = .error failure) (rest : List String) :
    read .skip c (payload :: rest) = read .skip c rest := by
  rw [read, h]

theorem read_abort_of_error (h : decode c.present payload = .error failure) (rest : List String) :
    read .abort c (payload :: rest) = (some failure, []) := by
  rw [read, h]

end Running

namespace Event

/-- The payload is an event of a blocked type. -/
def isBlocked (blocked : EventType → Bool) (payload : String) : Bool := (type? payload).any blocked

theorem isBlocked_of_none {payload : String} (h : type? payload = none)
    (blocked : EventType → Bool) : isBlocked blocked payload = false := by
  rw [isBlocked, h]
  rfl

theorem isBlocked_of_some {payload : String} {type : EventType} (h : type? payload = some type)
    (blocked : EventType → Bool) : isBlocked blocked payload = blocked type := by
  rw [isBlocked, h, Option.any_some]

end Event

/-- What is received when the events of blocked types are deleted. -/
def Reception.without (blocked : EventType → Bool) (x : Reception) : Reception :=
  { x with payloads := x.payloads.filter fun p ↦ !Event.isBlocked blocked p }

namespace Running

/-- Deleting events neither adds nor removes a payload that is refused. -/
theorem read_without_fst (blocked : EventType → Bool) (policy : MalformedPolicy) (c c' : Clock)
    (payloads : List String) :
    (read policy c' (payloads.filter fun p ↦ !Event.isBlocked blocked p)).1 =
      (read policy c payloads).1 := by
  induction payloads generalizing c c' with
  | nil => rfl
  | cons payload rest ih =>
    obtain ⟨htype, failure, hfailure⟩ | ⟨type, htype, hread⟩ := decode_cases payload
    · have hkept := Event.isBlocked_of_none htype blocked
      rw [List.filter_cons_of_pos (by rw [hkept]; rfl), read, read, hfailure, hfailure]
      cases policy with
      | skip => exact ih c c'
      | abort => rfl
    · obtain ⟨e, he, -⟩ := hread c.present
      obtain ⟨e', he', -⟩ := hread c'.present
      have hhead : (read policy c (payload :: rest)).1 = (read policy c.tick rest).1 := by
        rw [read, he]
      rw [hhead]
      cases hblocked : Event.isBlocked blocked payload with
      | true => rw [List.filter_cons_of_neg (by rw [hblocked]; nofun), ih c.tick c']
      | false =>
        rw [List.filter_cons_of_pos (by rw [hblocked]; rfl), read, he']
        exact ih c.tick c'.tick

/-- The moments at which the events that are left are to be read, so that they are the same. -/
theorem exists_moments (blocked : EventType → Bool) (policy : MalformedPolicy) (c : Clock)
    (payloads : List String) :
    ∃ moments : Nat → Moment, ∀ c' : Clock, (∀ n, c'.moment (c'.passed + n) = moments n) →
      (read policy c' (payloads.filter fun p ↦ !Event.isBlocked blocked p)).2 =
        (read policy c payloads).2.filter fun e ↦ !blocked e.type := by
  induction payloads generalizing c with
  | nil => exact ⟨c.moment, fun _ _ ↦ rfl⟩
  | cons payload rest ih =>
    obtain ⟨htype, failure, hfailure⟩ | ⟨type, htype, hread⟩ := decode_cases payload
    · have hkept := Event.isBlocked_of_none htype blocked
      obtain ⟨moments, hmoments⟩ := ih c
      refine ⟨moments, fun c' hc' ↦ ?_⟩
      rw [List.filter_cons_of_pos (by rw [hkept]; rfl), read, read, hfailure, hfailure]
      cases policy with
      | skip => exact hmoments c' hc'
      | abort => rfl
    · obtain ⟨e, he, rfl⟩ := hread c.present
      have hevents : (read policy c (payload :: rest)).2 = e :: (read policy c.tick rest).2 := by
        rw [read, he]
      have hsame := Event.isBlocked_of_some htype blocked
      obtain ⟨moments, hmoments⟩ := ih c.tick
      rw [hevents]
      cases hblocked : blocked e.type with
      | true =>
        rw [List.filter_cons_of_neg (by rw [hsame, hblocked]; nofun),
          List.filter_cons_of_neg (by rw [hblocked]; nofun)]
        exact ⟨moments, hmoments⟩
      | false =>
        rw [List.filter_cons_of_pos (by rw [hsame, hblocked]; rfl),
          List.filter_cons_of_pos (by rw [hblocked]; rfl)]
        -- the event takes the moment at which it was read, and the others follow
        refine ⟨fun n ↦ n.casesOn c.present moments, fun c' hc' ↦ ?_⟩
        have hpresent : c'.present = c.present := hc' 0
        have htick (n : Nat) : c'.tick.moment (c'.tick.passed + n) = moments n := by
          have hn := hc' (1 + n)
          rw [← Nat.add_assoc, Nat.add_comm 1 n] at hn
          exact hn
        rw [read, hpresent, he]
        exact congrArg (e :: ·) (hmoments c'.tick htick)

/-- There is a clock on which the events that are left are the same. -/
theorem exists_clock (blocked : EventType → Bool) (policy : MalformedPolicy) (c : Clock)
    (payloads : List String) :
    ∃ clock : Clock,
      (read policy clock.tick (payloads.filter fun p ↦ !Event.isBlocked blocked p)).2 =
        (read policy c payloads).2.filter fun e ↦ !blocked e.type := by
  obtain ⟨moments, hmoments⟩ := exists_moments blocked policy c payloads
  refine ⟨{ moment := fun n ↦ moments (n - 1) }, hmoments _ fun n ↦ ?_⟩
  exact congrArg moments (Nat.add_sub_cancel_left 1 n)

end Running

end AgentSession
