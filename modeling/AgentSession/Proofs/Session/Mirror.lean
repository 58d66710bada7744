import AgentSession.Proofs.Session.Announcements
import AgentSession.Proofs.Session.Operation
/-!
# Mirrors of a session

A subscriber may keep a mirror of the session from the notices alone. It starts with the messages
and the state document of the session, adds every message that it is told of, and replaces its list
or its document by every one that it is told. This module shows that such a mirror does not drift:
its document is that of the session, and its messages have the same identifiers in the same order
(`Mirror.Follows`). What it lacks is the text and the arguments that have arrived since it was last
told the whole list, which it then has at once (`Mirror.follows_of_announced`).

The subscriber that keeps the mirror may answer what it likes, and there may be arbitrary other
subscribers. All of them may look at the mirror.
-/

namespace AgentSession

variable {σ : Type}

/-! ## Mirrors -/

/-- What is known of a session from notices. -/
structure Mirror where
  messages : List Message
  state : Json
  /-- All notices so far, oldest first. -/
  heard : List Notice := []
deriving DecidableEq, Repr

namespace Mirror

def of (s : Session) : Mirror := { messages := s.messages, state := s.state }

/-- The mirror after one more notice. -/
def see (b : Mirror) (notice : Notice) : Mirror :=
  let b := { b with heard := b.heard ++ [notice] }
  match notice with
  | .newMessage m => { b with messages := b.messages ++ [m] }
  | .messagesChanged messages => { b with messages }
  | .stateChanged state => { b with state }
  | .newToolCall _ | .runInitialized _ | .runFailed _ | .runFinalized _ => b

def seeAll (b : Mirror) (notices : List Notice) : Mirror := notices.foldl see b

theorem seeAll_concat (b : Mirror) (notices : List Notice) (notice : Notice) :
    b.seeAll (notices ++ [notice]) = (b.seeAll notices).see notice := by
  rw [seeAll, List.foldl_append]
  rfl

theorem heard_see (b : Mirror) (notice : Notice) : (b.see notice).heard = b.heard ++ [notice] := by
  cases notice <;> rfl

theorem heard_seeAll (b : Mirror) (notices : List Notice) :
    (b.seeAll notices).heard = b.heard ++ notices := by
  induction notices generalizing b with
  | nil => exact (List.append_nil _).symm
  | cons notice notices ih =>
    have h : (b.seeAll (notice :: notices)).heard = (b.see notice).heard ++ notices := ih _
    rw [h, heard_see, List.append_assoc, List.singleton_append]

/-- A mirror has the state document of a session, and the identifiers of its messages. -/
structure Follows (b : Mirror) (ms : List Message) (doc : Json) : Prop where
  state : b.state = doc
  ids : b.messages.map Message.id = ms.map Message.id

variable {b : Mirror} {given : Prop} {ms ms' : List Message} {doc doc' : Json}
  {notices : List Notice}

/-- What changes with notices is followed, and a mirror that was told the whole list of messages has
the messages themselves. -/
theorem follows_of_announced (hb : b.Follows ms doc)
    (h : Session.Announced given ms doc notices ms' doc') :
    (b.seeAll notices).Follows ms' doc' ∧
      ((∃ told, .messagesChanged told ∈ notices) → (b.seeAll notices).messages = ms') := by
  induction h with
  | silent hsame =>
    refine ⟨⟨hb.state, hb.ids.trans hsame.ids.symm⟩, ?_⟩
    rintro ⟨told, htold⟩
    cases htold
  | message h m hcalls ih =>
    obtain ⟨hfollows, hwhole⟩ := ih
    rw [seeAll_concat]
    refine ⟨⟨hfollows.state, ?_⟩, ?_⟩
    · change List.map Message.id (_ ++ [m]) = _
      rw [List.map_append, hfollows.ids, ← List.map_append]
    · rintro ⟨told, htold⟩
      rcases List.mem_append.1 htold with htold | htold
      · exact congrArg (· ++ [m]) (hwhole ⟨told, htold⟩)
      · cases List.mem_singleton.1 htold
  | call h call hnotices hids hcalls ih =>
    obtain ⟨hfollows, -⟩ := ih
    rw [seeAll_concat]
    refine ⟨⟨hfollows.state, hfollows.ids.trans hids.symm⟩, ?_⟩
    rintro ⟨told, htold⟩
    rcases List.mem_append.1 htold with htold | htold
    · exact absurd htold (hnotices told)
    · cases List.mem_singleton.1 htold
  | messages h hmessages ih =>
    obtain ⟨hfollows, -⟩ := ih
    rw [seeAll_concat]
    exact ⟨⟨hfollows.state, rfl⟩, fun _ ↦ rfl⟩
  | state h doc'' ih =>
    obtain ⟨hfollows, hwhole⟩ := ih
    rw [seeAll_concat]
    refine ⟨⟨rfl, hfollows.ids⟩, ?_⟩
    rintro ⟨told, htold⟩
    rcases List.mem_append.1 htold with htold | htold
    · exact hwhole ⟨told, htold⟩
    · cases List.mem_singleton.1 htold

end Mirror

/-! ## The subscriber that keeps a mirror, and others -/

namespace Subscriber

/-- A subscriber beside a mirror, which it may look at. -/
def beside (b : Mirror → Subscriber σ) : Subscriber (Mirror × σ) where
  onEvent e view m := (((b m.1).onEvent e view m.2).1, m.1, ((b m.1).onEvent e view m.2).2)
  onKind kind text view m :=
    (((b m.1).onKind kind text view m.2).1, m.1, ((b m.1).onKind kind text view m.2).2)
  notify notice m := (m.1, (b m.1).notify notice m.2)

/-- The subscriber that keeps the mirror. It shows the mirror every notice, and otherwise does as it
likes. -/
def mirroring (b : Mirror → Subscriber σ) : Subscriber (Mirror × σ) :=
  { beside b with notify := fun notice m ↦ (m.1.see notice, (b m.1).notify notice m.2) }

/-- Subscribers of which one keeps the mirror. -/
def company (before : List (Mirror → Subscriber σ)) (b : Mirror → Subscriber σ)
    (after : List (Mirror → Subscriber σ)) : List (Subscriber (Mirror × σ)) :=
  before.map beside ++ mirroring b :: after.map beside

/-- What asking one subscriber does not change is not changed by asking all. -/
theorem askAll_keeps {α : Type} (part : σ → α) {ask : Subscriber σ → σ → Answer σ}
    {bs : List (Subscriber σ)} (hask : ∀ b ∈ bs, ∀ m, part (ask b m).2 = part m) (m : σ) :
    part (askAll ask bs m).2 = part m := by
  induction bs generalizing m with
  | nil => rfl
  | cons b rest ih =>
    obtain ⟨hb, hrest⟩ := List.forall_mem_cons.1 hask
    have hfirst : part (ask b m).2 = part m := hb m
    rw [askAll]
    rcases hasked : ask b m with ⟨answer, m'⟩
    rw [hasked] at hfirst
    cases answer with
    | error failure => exact hfirst
    | ok mutation =>
      dsimp only
      split
      · exact hfirst
      · have hlater : part (askAll ask rest m').2 = part m' := ih hrest m'
        rcases hrested : askAll ask rest m' with ⟨later, m''⟩
        rw [hrested] at hlater
        cases later with
        | error failure => exact hlater.trans hfirst
        | ok later => exact hlater.trans hfirst

variable {before after : List (Mirror → Subscriber σ)} {b : Mirror → Subscriber σ}

theorem forall_mem_company {P : Subscriber (Mirror × σ) → Prop}
    (hbeside : ∀ b : Mirror → Subscriber σ, P (beside b)) (hmirroring : P (mirroring b)) :
    ∀ c ∈ company before b after, P c := by
  intro c hc
  rcases List.mem_append.1 hc with hc | hc
  · obtain ⟨b', -, rfl⟩ := List.mem_map.1 hc
    exact hbeside b'
  · rcases List.mem_cons.1 hc with rfl | hc
    · exact hmirroring
    · obtain ⟨b', -, rfl⟩ := List.mem_map.1 hc
      exact hbeside b'

theorem tell_besides (bs : List (Mirror → Subscriber σ)) (notice : Notice) (m : Mirror × σ) :
    (tell (bs.map beside) notice m).1 = m.1 := by
  induction bs generalizing m with
  | nil => rfl
  | cons b rest ih => exact ih ((beside b).notify notice m)

/-- However many subscribers there are, the mirror sees a notice once. -/
theorem tell_company (notice : Notice) (m : Mirror × σ) :
    (tell (company before b after) notice m).1 = m.1.see notice := by
  have hsplit : tell (company before b after) notice m =
      tell (after.map beside) notice
        ((mirroring b).notify notice (tell (before.map beside) notice m)) := by
    rw [company, tell, List.foldl_append, List.foldl_cons]
    rfl
  have hbefore : (tell (before.map beside) notice m).1 = m.1 := tell_besides before notice m
  rw [hsplit, tell_besides, ← hbefore]
  rfl

theorem tellAll_company (notices : List Notice) (m : Mirror × σ) :
    (tellAll (company before b after) notices m).1 = m.1.seeAll notices := by
  induction notices generalizing m with
  | nil => rfl
  | cons notice notices ih =>
    have hfirst : (tell (company before b after) notice m).1 = m.1.see notice :=
      tell_company notice m
    have hlater : (tellAll (company before b after) (notice :: notices) m).1 =
        (tell (company before b after) notice m).1.seeAll notices := ih _
    rw [hlater, hfirst]
    rfl

/-- Subscribers that are asked do not change the mirror. -/
theorem askAll_company {ask : Subscriber (Mirror × σ) → Mirror × σ → Answer (Mirror × σ)}
    (hbeside : ∀ (b : Mirror → Subscriber σ) m, (ask (beside b) m).2.1 = m.1)
    (hmirroring : ∀ m, (ask (mirroring b) m).2.1 = m.1) (m : Mirror × σ) :
    (askAll ask (company before b after) m).2.1 = m.1 :=
  askAll_keeps Prod.fst (forall_mem_company hbeside hmirroring) m

end Subscriber

/-! ## Calls of a session -/

/-- A call of a session: an event is handled, a mutation is committed, or a message is received. -/
inductive Call where
  | handle (e : Event)
  | commit (m : Mutation)
  | receive (m : Message)

/-- Whether a call may bring messages with tool calls, or a whole list of messages. -/
def Call.brings : Call → Prop
  | .handle e => ∃ messages, e.kind = .messagesSnapshot messages
  | .commit _ | .receive _ => True

namespace Session

open Message (bareCalls)

def call (s : Session) (bs : List (Subscriber σ)) (c : Call) (memory : σ) : Session × σ :=
  match c with
  | .handle e => ((s.handle bs e memory).session, (s.handle bs e memory).memory)
  | .commit m => s.commit bs m memory
  | .receive m => s.receive bs m memory

/-- Some calls one after the other. What handling an event answers may be committed or not. -/
def callAll (s : Session) (bs : List (Subscriber σ)) : List Call → σ → Session × σ
  | [], memory => (s, memory)
  | c :: cs, memory => (s.call bs c memory).1.callAll bs cs (s.call bs c memory).2

variable {before after : List (Mirror → Subscriber σ)} {b : Mirror → Subscriber σ}

theorem announced_handle (s : Session) (e : Event) (m : Mirror × σ) :
    ∃ notices, (s.handle (Subscriber.company before b after) e m).memory.1 = m.1.seeAll notices ∧
      Announced (∃ messages, e.kind = .messagesSnapshot messages) s.messages s.state notices
        (s.handle (Subscriber.company before b after) e m).session.messages
        (s.handle (Subscriber.company before b after) e m).session.state := by
  have hgeneral : (s.askGeneral (Subscriber.company before b after) e m).2.1 = m.1 :=
    Subscriber.askAll_company (fun _ _ ↦ rfl) (fun _ ↦ rfl) m
  have htold : (s.memoryAfter (Subscriber.company before b after) e m).1 =
      m.1.seeAll (s.apply e.kind).notices := by
    rw [memoryAfter, Subscriber.tellAll_company, hgeneral]
  by_cases hpasses : s.passes (Subscriber.company before b after) e m = true
  · refine ⟨(s.apply e.kind).notices, ?_⟩
    cases houtcome : (s.apply e.kind).outcome with
    | error failure =>
      rw [handle_of_apply_error hpasses houtcome]
      exact ⟨htold, s.announced_apply e.kind⟩
    | ok text =>
      rw [handle_of_apply_ok hpasses houtcome]
      refine ⟨?_, s.announced_apply e.kind⟩
      exact (Subscriber.askAll_company (fun _ _ ↦ rfl) (fun _ ↦ rfl) _).trans htold
  · obtain ⟨hsession, hmemory⟩ := handle_of_not_passes hpasses
    rw [hsession, hmemory]
    exact ⟨[], hgeneral, .refl _ _⟩

/-- **One call.** The mirror sees what goes with the changes of the session. -/
theorem announced_call (s : Session) (before : List (Mirror → Subscriber σ))
    (b : Mirror → Subscriber σ) (after : List (Mirror → Subscriber σ)) (c : Call) (m : Mirror × σ) :
    ∃ notices, (s.call (Subscriber.company before b after) c m).2.1 = m.1.seeAll notices ∧
      Announced c.brings s.messages s.state notices
        (s.call (Subscriber.company before b after) c m).1.messages
        (s.call (Subscriber.company before b after) c m).1.state := by
  cases c with
  | handle e => exact s.announced_handle e m
  | commit mutation =>
    exact ⟨mutationNotices mutation, Subscriber.tellAll_company _ m, s.announced_mutate mutation⟩
  | receive message =>
    exact ⟨[.newMessage message], Subscriber.tell_company _ m, s.announced_addMessage message⟩

theorem follows_callAll {s : Session} {m : Mirror × σ} (h : m.1.Follows s.messages s.state)
    (calls : List Call) :
    let (t, mirror, _) := s.callAll (Subscriber.company before b after) calls m
    mirror.Follows t.messages t.state := by
  induction calls generalizing s m with
  | nil => exact h
  | cons c cs ih =>
    obtain ⟨notices, hmirror, hannounced⟩ := s.announced_call before b after c m
    refine ih ?_
    rw [hmirror]
    exact (Mirror.follows_of_announced h hannounced).1

/-- **A mirror does not drift.** Let one of some subscribers keep a mirror of a session, and let
events be handled, mutations be committed and messages be received in any order.

* Afterwards the mirror has the state document of the session, and the identifiers of its messages.
* If the next call tells the whole list of messages, the mirror has these very messages after it.
* If the next call is an event that does not replace the messages, then the tool calls that are new
  after it are those that were told of, each as often as it is new. -/
theorem mirror_callAll (s : Session) (before after : List (Mirror → Subscriber σ))
    (b : Mirror → Subscriber σ) (memory : σ) (calls : List Call) :
    let bs := Subscriber.company before b after
    let (t, mirror, memory) := s.callAll bs calls (Mirror.of s, memory)
    mirror.Follows t.messages t.state ∧
    ∀ c : Call,
      let (t', mirror', _) := t.call bs c (mirror, memory)
      ∃ notices, mirror'.heard = mirror.heard ++ notices ∧
        ((∃ told, .messagesChanged told ∈ notices) → mirror'.messages = t'.messages) ∧
        (¬c.brings →
          (bareCalls t'.messages).Perm (bareCalls t.messages ++ announcedCalls notices)) := by
  intro bs
  have hstart : (Mirror.of s).Follows s.messages s.state := ⟨rfl, rfl⟩
  have hfollows : (s.callAll bs calls (Mirror.of s, memory)).2.1.Follows
      (s.callAll bs calls (Mirror.of s, memory)).1.messages
      (s.callAll bs calls (Mirror.of s, memory)).1.state := follows_callAll hstart calls
  obtain ⟨t, mirror, later, ht⟩ : ∃ t mirror later,
      s.callAll bs calls (Mirror.of s, memory) = (t, mirror, later) := ⟨_, _, _, rfl⟩
  rw [ht] at hfollows ⊢
  refine ⟨hfollows, fun c ↦ ?_⟩
  obtain ⟨notices, hmirror, hannounced⟩ := t.announced_call before b after c (mirror, later)
  obtain ⟨t', mirror', last, ht'⟩ : ∃ t' mirror' last,
      t.call bs c (mirror, later) = (t', mirror', last) := ⟨_, _, _, rfl⟩
  rw [ht'] at hmirror hannounced ⊢
  obtain rfl : mirror' = mirror.seeAll notices := hmirror
  obtain ⟨-, hwhole⟩ := Mirror.follows_of_announced hfollows hannounced
  exact ⟨notices, mirror.heard_seeAll notices, hwhole, hannounced.calls⟩

/-- Text that arrives is not told of, and reaches the mirror when the message ends. -/
example :
    let bs : List (Subscriber (Mirror × Unit)) := Subscriber.company [] (fun _ ↦ {}) []
    let handled (kind : EventKind) : Call := .handle { kind, timestamp := 0 }
    let calls := [handled (.textMessageStart "a" .assistant), handled (.textMessageContent "a" "x")]
    let going := callAll {} bs calls (Mirror.of {}, ())
    let ended := callAll {} bs (calls ++ [handled (.textMessageEnd "a")]) (Mirror.of {}, ())
    going.2.1.messages ≠ going.1.messages ∧ ended.2.1.messages = ended.1.messages := by
  decide

end Session

end AgentSession
