import AgentSession.Json.Written
import AgentSession.Proofs.Json.Lexing
/-!
# Reading back compact texts

A written document has a compact text, in which the members of an object stand in its own order. If
all numbers are integers of 64 bits and nothing lacks a value, the document is read back from this
text as it was written (`Written.parse_render`).

The two halves of reading are treated one after the other. The text is cut into the tokens of the
document (`Written.closes_render`), which is shown along the document, as a token ends with the
comma or bracket behind it. From its tokens the machine makes the document on whatever frames are
open (`Written.run_tokens`). Both are inductions over documents, lists of items and lists of
members.
-/

namespace AgentSession

namespace Written

/-! ## Texts and tokens -/

mutual

/-- The compact text of a written document. What lacks a value has no text. -/
def render : Written → List Char
  | .null => ['n', 'u', 'l', 'l']
  | .bool true => ['t', 'r', 'u', 'e']
  | .bool false => ['f', 'a', 'l', 's', 'e']
  | .number n => (n.map Json.renderNumber).getD []
  | .text s => (s.map Json.renderText).getD []
  | .array items => '[' :: renderItems items ++ [']']
  | .object members => '\x7b' :: renderMembers members ++ ['\x7d']

def renderItems : List Written → List Char
  | [] => []
  | [item] => render item
  | item :: items => render item ++ ',' :: renderItems items

def renderMembers : List (Option String × Written) → List Char
  | [] => []
  | [(key, value)] => (key.map Json.renderText).getD [] ++ ':' :: render value
  | (key, value) :: members =>
    (key.map Json.renderText).getD [] ++ ':' :: render value ++ ',' :: renderMembers members

end

mutual

/-- The tokens of a written document. -/
def tokens : Written → List Token
  | .null => [.null]
  | .bool b => [.bool b]
  | .number n => [.number n]
  | .text s => [.text s]
  | .array items => .openArray :: itemTokens items ++ [.closeArray]
  | .object members => .openObject :: memberTokens members ++ [.closeObject]

def itemTokens : List Written → List Token
  | [] => []
  | [item] => tokens item
  | item :: items => tokens item ++ .comma :: itemTokens items

def memberTokens : List (Option String × Written) → List Token
  | [] => []
  | [(key, value)] => .text key :: .colon :: tokens value
  | (key, value) :: members => .text key :: .colon :: tokens value ++ .comma :: memberTokens members

end

mutual

/-- Every number is an integer of 64 bits, and nothing lacks a value. -/
def Plain : Written → Prop
  | .null | .bool _ => True
  | .number n => ∃ i, n = some (.int i) ∧ Literal.Fits i
  | .text s => s.isSome
  | .array items => PlainItems items
  | .object members => PlainMembers members

def PlainItems : List Written → Prop
  | [] => True
  | item :: items => item.Plain ∧ PlainItems items

def PlainMembers : List (Option String × Written) → Prop
  | [] => True
  | (key, value) :: members => key.isSome ∧ value.Plain ∧ PlainMembers members

end

/-! ## From the text to the tokens -/

open Token (Closes)

theorem closes_member {key : Option String} {value : Written} (hkey : key.isSome)
    (hvalue : ∀ before, Closes before value.render (value.tokens.reverse ++ before))
    (before : List Token) :
    Closes before ((key.map Json.renderText).getD [] ++ ':' :: value.render)
      ((.text key :: .colon :: value.tokens).reverse ++ before) := by
  obtain ⟨key, rfl⟩ := Option.isSome_iff_exists.1 hkey
  have hcolon := Closes.cons (c := ':') rfl (hvalue (.colon :: .text (some key) :: before))
  have hall := (Token.closes_renderText before key).append (by decide) hcolon
  simpa using hall

mutual

/-- The text of a document is cut into its tokens. -/
theorem closes_render : ∀ (w : Written), w.Plain → ∀ before : List Token,
    Closes before w.render (w.tokens.reverse ++ before)
  | .null, _, before => Token.closes_null before
  | .bool true, _, before => Token.closes_true before
  | .bool false, _, before => Token.closes_false before
  | .number n, h, before => by
    obtain ⟨i, rfl, hfits⟩ := h
    exact Token.closes_renderInt hfits before
  | .text s, h, before => by
    obtain ⟨s, rfl⟩ := Option.isSome_iff_exists.1 h
    exact Token.closes_renderText before s
  | .array items, h, before => by
    have hitems := closes_renderItems items h (.openArray :: before)
    have hclose := Closes.cons (c := ']') rfl
      (Token.closes_nil (.closeArray :: ((itemTokens items).reverse ++ .openArray :: before)))
    have hall := Closes.cons (c := '[') rfl (hitems.append (by decide) hclose)
    simpa [render, tokens] using hall
  | .object members, h, before => by
    have hmembers := closes_renderMembers members h (.openObject :: before)
    have hclose := Closes.cons (c := '\x7d') rfl
      (Token.closes_nil (.closeObject :: ((memberTokens members).reverse ++ .openObject :: before)))
    have hall := Closes.cons (c := '\x7b') rfl (hmembers.append (by decide) hclose)
    simpa [render, tokens] using hall

theorem closes_renderItems : ∀ (items : List Written), PlainItems items → ∀ before : List Token,
    Closes before (renderItems items) ((itemTokens items).reverse ++ before)
  | [], _, before => Token.closes_nil before
  | [item], h, before => closes_render item h.1 before
  | item :: next :: items, h, before => by
    obtain ⟨hitem, hitems⟩ := h
    have hrest := closes_renderItems (next :: items) hitems
      (.comma :: (item.tokens.reverse ++ before))
    have hcomma := Closes.cons (c := ',') rfl hrest
    have hall := (closes_render item hitem before).append (by decide) hcomma
    simpa [renderItems, itemTokens] using hall

theorem closes_renderMembers : ∀ (members : List (Option String × Written)), PlainMembers members →
    ∀ before : List Token,
      Closes before (renderMembers members) ((memberTokens members).reverse ++ before)
  | [], _, before => Token.closes_nil before
  | [(key, value)], h, before => closes_member h.1 (closes_render value h.2.1) before
  | (key, value) :: next :: members, h, before => by
    obtain ⟨hkey, hvalue, hmembers⟩ := h
    have hrest := closes_renderMembers (next :: members) hmembers
      (.comma :: ((.text key :: .colon :: value.tokens).reverse ++ before))
    have hcomma := Closes.cons (c := ',') rfl hrest
    have hall := (closes_member hkey (closes_render value hvalue) before).append (by decide)
      hcomma
    simpa [renderMembers, memberTokens] using hall

end

theorem scan_render {w : Written} (h : w.Plain) : Token.scan w.render = some w.tokens := by
  have hscan := Token.scan_of_closes (closes_render w h [])
  rwa [List.append_nil, List.reverse_reverse] at hscan

/-! ## From the tokens to the document -/

namespace Machine

def run (m : Machine) (tokens : List Token) : Option Machine := tokens.foldlM step m

theorem run_cons (m : Machine) (token : Token) (tokens : List Token) :
    m.run (token :: tokens) = (m.step token).bind fun m' ↦ m'.run tokens := rfl

theorem run_append (m : Machine) (tokens more : List Token) :
    m.run (tokens ++ more) = (m.run tokens).bind fun m' ↦ m'.run more :=
  List.foldlM_append

/-- The machine expects a value, if only as the first item of an array. -/
def Expects (mode : Mode) : Prop := mode = .value ∨ mode = .firstItem

theorem run_enter {mode : Mode} (h : Expects mode) (frames : List Frame) {token : Token}
    (htoken : token ≠ .closeArray) (tokens : List Token) :
    run ⟨frames, mode⟩ (token :: tokens) = (enter frames token).bind fun m ↦ m.run tokens := by
  have hstep : step ⟨frames, mode⟩ token = enter frames token := by
    obtain rfl | rfl := h
    · rfl
    · rw [step.eq_def]
      split <;> simp_all
  rw [run_cons, hstep]

/-- The machine expects a key, if only the first one of an object. -/
def ExpectsKey (mode : Mode) : Prop := mode = .key ∨ mode = .firstKey

theorem step_key {mode : Mode} (h : ExpectsKey mode) (frames : List Frame) (key : Option String) :
    step ⟨frames, mode⟩ (.text key) = some ⟨frames, .colon key⟩ := by
  obtain rfl | rfl := h
  · rfl
  · -- the frame would matter if the object could be closed here
    cases frames with
    | nil => rfl
    | cons frame frames => cases frame <;> rfl

end Machine

open Machine

/-- A member puts its value behind its key. -/
theorem run_member {key : Option String} {value : Written}
    (hvalue : ∀ frames, run ⟨frames, .value⟩ value.tokens = some ⟨frames, .after value⟩)
    (done : List (Option String × Written)) (frames : List Frame) {mode : Mode}
    (h : ExpectsKey mode) :
    run ⟨.object done :: frames, mode⟩ (.text key :: .colon :: value.tokens) =
      some ⟨.member done key :: frames, .after value⟩ := by
  rw [run_cons, step_key h, Option.bind_some, run_cons]
  exact hvalue _

mutual

/-- The machine makes a document of its tokens, whatever is open. -/
theorem run_tokens : ∀ (w : Written) (frames : List Frame) {mode : Mode}, Expects mode →
    run ⟨frames, mode⟩ w.tokens = some ⟨frames, .after w⟩
  | .null, frames, mode, h => by
    rw [tokens, run_enter h frames (by simp)]
    rfl
  | .bool b, frames, mode, h => by
    rw [tokens, run_enter h frames (by simp)]
    rfl
  | .number n, frames, mode, h => by
    rw [tokens, run_enter h frames (by simp)]
    rfl
  | .text s, frames, mode, h => by
    rw [tokens, run_enter h frames (by simp)]
    rfl
  | .array [], frames, mode, h => by
    rw [tokens, List.cons_append, run_enter h frames (by simp)]
    rfl
  | .array (item :: items), frames, mode, h => by
    rw [tokens, List.cons_append, run_enter h frames (by simp)]
    exact run_itemTokens (item :: items) nofun [] frames (.inr rfl)
  | .object [], frames, mode, h => by
    rw [tokens, List.cons_append, run_enter h frames (by simp)]
    rfl
  | .object (member :: members), frames, mode, h => by
    rw [tokens, List.cons_append, run_enter h frames (by simp)]
    exact run_memberTokens (member :: members) nofun [] frames (.inr rfl)

theorem run_itemTokens : ∀ (items : List Written), items ≠ [] → ∀ (done : List Written)
    (frames : List Frame) {mode : Mode}, Expects mode →
    run ⟨.array done :: frames, mode⟩ (itemTokens items ++ [.closeArray]) =
      some ⟨frames, .after (.array (done.reverse ++ items))⟩
  | [], hne, _, _, _, _ => absurd rfl hne
  | [item], _, done, frames, mode, h => by
    rw [itemTokens, run_append, run_tokens item _ h]
    change some (⟨frames, .after (.array (item :: done).reverse)⟩ : Machine) = _
    rw [List.reverse_cons]
  | item :: next :: items, _, done, frames, mode, h => by
    have hrest := run_itemTokens (next :: items) nofun (item :: done) frames (.inl rfl)
    change run _ ((item.tokens ++ .comma :: itemTokens (next :: items)) ++ _) = _
    rw [List.append_assoc, run_append, run_tokens item _ h, Option.bind_some, List.cons_append,
      run_cons]
    change run ⟨.array (item :: done) :: frames, .value⟩ _ = _
    rw [hrest, List.reverse_cons, List.append_assoc, List.singleton_append]

theorem run_memberTokens : ∀ (members : List (Option String × Written)), members ≠ [] →
    ∀ (done : List (Option String × Written)) (frames : List Frame) {mode : Mode}, ExpectsKey mode →
    run ⟨.object done :: frames, mode⟩ (memberTokens members ++ [.closeObject]) =
      some ⟨frames, .after (.object (done.reverse ++ members))⟩
  | [], hne, _, _, _, _ => absurd rfl hne
  | [(key, value)], _, done, frames, mode, h => by
    have hvalue frames := run_tokens value frames (.inl rfl)
    rw [memberTokens, run_append, run_member hvalue done frames h]
    change some (⟨frames, .after (.object ((key, value) :: done).reverse)⟩ : Machine) = _
    rw [List.reverse_cons]
  | (key, value) :: next :: members, _, done, frames, mode, h => by
    have hvalue frames := run_tokens value frames (.inl rfl)
    have hrest := run_memberTokens (next :: members) nofun ((key, value) :: done) frames (.inl rfl)
    change run _ (((.text key :: .colon :: value.tokens) ++
      .comma :: memberTokens (next :: members)) ++ _) = _
    rw [List.append_assoc, run_append, run_member hvalue done frames h, Option.bind_some,
      List.cons_append, run_cons]
    change run ⟨.object ((key, value) :: done) :: frames, .key⟩ _ = _
    rw [hrest, List.reverse_cons, List.append_assoc, List.singleton_append]

end

theorem ofTokens?_tokens (w : Written) : ofTokens? w.tokens = some w := by
  have hrun := run_tokens w [] (.inl rfl)
  rw [ofTokens?]
  change (run {} w.tokens).bind finish = _
  rw [hrun]
  rfl

/-- **Compact texts.** What is printed compactly is read as what it was. -/
theorem parse_render {w : Written} (h : w.Plain) : parse w.render = some w := by
  rw [parse, scan_render h]
  exact ofTokens?_tokens w

end Written

end AgentSession
