import AgentSession.Config.Load
import AgentSession.Proofs.Dict
/-!
# Layers of a configuration

Configurations are layered, and a layer that comes later wins, setting by setting and header by
header. To merge layers is associative, and the configuration in which everything is left out is the
unit, so that only the order of layers matters and not how they are grouped
(`Config.Layers.merged_eq`).

The environment is one more layer. It is not merged but written over a configuration, one setting
after the other; what comes of it is the same as merging the layer that holds these settings and
nothing else (`Config.override_eq`).

## What order is for

Headers are kept in the order of their names, so that equal headers are equal lists. Only
associativity needs the order: to add headers one after the other to headers in any order would show
which ones were added first. Headers that were read from a text are in order
(`Config.ordered_of_reader`), and merging keeps them so.
-/

namespace AgentSession

theorem Reader.sorted_of_dict {α : Type} {read : Reader α} {depth : Nat} {w : Written}
    {d : Dict α} (h : Reader.dict read depth w = some d) : d.Sorted := by
  rw [Reader.dict.eq_def] at h
  split at h
  · obtain ⟨pairs, -, rfl⟩ := Option.map_eq_some_iff.1 h
    exact Dict.sorted_ofList pairs
  · cases h

namespace Config

variable {a b c : Config}

/-- The headers, if there are any, stand in the order of their names, and none twice. -/
def Ordered (c : Config) : Prop := ∀ headers, c.headers = some headers → headers.Sorted

theorem ordered_of_headers {r : Record} {read : Option (Dict String)}
    (h : r.withDefault "headers" none (Reader.optional (Reader.dict Reader.text)) = some read) :
    ∀ headers, read = some headers → headers.Sorted := by
  rintro headers rfl
  rw [Record.withDefault] at h
  split at h
  · cases h
  · rw [Reader.optional.eq_def] at h
    split at h
    · cases h
    · obtain ⟨_, hread, ⟨⟩⟩ := Option.map_eq_some_iff.1 h
      exact Reader.sorted_of_dict hread

/-- A configuration that is read from a text is in order. -/
theorem ordered_of_reader {depth : Nat} {w : Written} (h : reader depth w = some c) :
    c.Ordered := by
  simp only [reader, Option.bind_eq_bind, Option.bind_eq_some_iff] at h
  obtain ⟨r, -, url, -, agentId, -, headers, hheaders, bearerToken, -, timeoutMs, -,
    malformedPayload, -, stateHistory, -, logLevel, -, hc⟩ := h
  cases hc
  exact ordered_of_headers hheaders

/-! ## Merging -/

/-- What a configuration says of a header. -/
def header? (c : Config) (name : String) : Option String :=
  c.headers.bind fun headers ↦ Dict.get? headers name

theorem mergeHeaders_none (headers : Option (Dict String)) :
    mergeHeaders headers none = headers := by
  cases headers <;> rfl

theorem none_mergeHeaders (headers : Option (Dict String)) :
    mergeHeaders none headers = headers := by
  cases headers <;> rfl

theorem merge_default (c : Config) : c.merge {} = c := by
  simp [merge, mergeHeaders_none]

theorem default_merge (c : Config) : merge {} c = c := by
  simp [merge, none_mergeHeaders]

theorem mergeHeaders_assoc (ha : a.Ordered) (hb : b.Ordered) (hc : c.Ordered) :
    mergeHeaders (mergeHeaders a.headers b.headers) c.headers =
      mergeHeaders a.headers (mergeHeaders b.headers c.headers) := by
  cases ha' : a.headers with
  | none => rw [none_mergeHeaders, none_mergeHeaders]
  | some d =>
    cases hb' : b.headers with
    | none => rw [mergeHeaders_none, none_mergeHeaders]
    | some e =>
      cases hc' : c.headers with
      | none => rw [mergeHeaders_none, mergeHeaders_none]
      | some f => exact congrArg some ((ha d ha').override_assoc (hb e hb') (hc f hc'))

theorem merge_assoc (ha : a.Ordered) (hb : b.Ordered) (hc : c.Ordered) :
    (a.merge b).merge c = a.merge (b.merge c) := by
  have hheaders := mergeHeaders_assoc ha hb hc
  simp [merge, hheaders, Option.or_assoc]

theorem Ordered.merge (ha : a.Ordered) (hb : b.Ordered) : (a.merge b).Ordered := by
  intro headers h
  change mergeHeaders a.headers b.headers = some headers at h
  cases ha' : a.headers with
  | none =>
    rw [ha', none_mergeHeaders] at h
    exact hb headers h
  | some d =>
    cases hb' : b.headers with
    | none =>
      rw [hb', mergeHeaders_none, ha'] at h
      exact ha headers (ha'.trans h)
    | some e =>
      rw [ha', hb'] at h
      cases h
      exact (ha d ha').override e

theorem ordered_default : Ordered {} := nofun

theorem header?_merge (hb : b.Ordered) (name : String) :
    (a.merge b).header? name = (b.header? name).or (a.header? name) := by
  rw [header?, header?, header?]
  change (mergeHeaders a.headers b.headers).bind _ = _
  cases a.headers with
  | none => rw [none_mergeHeaders, Option.bind_none, Option.or_none]
  | some d =>
    cases hb' : b.headers with
    | none => rfl
    | some e => exact Dict.get?_override d (hb e hb').nodup_keys name

/-- What a configuration says if a later layer lies over a base. -/
structure Overlaid (base later merged : Config) : Prop where
  url : merged.url = later.url.or base.url
  agentId : merged.agentId = later.agentId.or base.agentId
  bearerToken : merged.bearerToken = later.bearerToken.or base.bearerToken
  timeoutMs : merged.timeoutMs = later.timeoutMs.or base.timeoutMs
  malformedPayload : merged.malformedPayload = later.malformedPayload.or base.malformedPayload
  stateHistory : merged.stateHistory = later.stateHistory.or base.stateHistory
  logLevel : merged.logLevel = later.logLevel.or base.logLevel
  header (name : String) : merged.header? name = (later.header? name).or (base.header? name)
  /-- There are headers, if only none, where a layer has them. -/
  hasHeaders : merged.headers.isSome = (base.headers.isSome || later.headers.isSome)

theorem overlaid_merge (hb : b.Ordered) : Overlaid a b (a.merge b) where
  url := Option.orElse_eq_or
  agentId := Option.orElse_eq_or
  bearerToken := Option.orElse_eq_or
  timeoutMs := Option.orElse_eq_or
  malformedPayload := Option.orElse_eq_or
  stateHistory := Option.orElse_eq_or
  logLevel := Option.orElse_eq_or
  header := header?_merge hb
  hasHeaders := by
    change (mergeHeaders a.headers b.headers).isSome = _
    cases a.headers <;> cases b.headers <;> rfl

/-! ## Groups of layers -/

/-- Layers in groups, the later ones to the right. -/
inductive Layers where
  | one (c : Config)
  | group (earlier later : Layers)

/-- The configuration that each group is merged into before it is merged with others. -/
def Layers.merged : Layers → Config
  | .one c => c
  | .group earlier later => earlier.merged.merge later.merged

def Layers.toList : Layers → List Config
  | .one c => [c]
  | .group earlier later => earlier.toList ++ later.toList

/-- Layers, merged one after the other. -/
def mergeAll (layers : List Config) : Config := layers.foldl merge {}

theorem ordered_foldl_merge (hc : c.Ordered) {layers : List Config}
    (h : ∀ layer ∈ layers, layer.Ordered) : (layers.foldl merge c).Ordered := by
  induction layers generalizing c with
  | nil => exact hc
  | cons layer layers ih =>
    obtain ⟨hlayer, hrest⟩ := List.forall_mem_cons.1 h
    exact ih (hc.merge hlayer) hrest

/-- Layers may be merged with each other before they are merged with what came before. -/
theorem foldl_merge (hc : c.Ordered) {layers : List Config} (h : ∀ layer ∈ layers, layer.Ordered) :
    layers.foldl merge c = c.merge (mergeAll layers) := by
  induction layers generalizing c with
  | nil => exact (merge_default c).symm
  | cons layer layers ih =>
    obtain ⟨hlayer, hrest⟩ := List.forall_mem_cons.1 h
    have hmerged : (mergeAll layers).Ordered := ordered_foldl_merge ordered_default hrest
    have hall : mergeAll (layer :: layers) = layer.merge (mergeAll layers) := by
      rw [mergeAll, List.foldl_cons, default_merge, ih hlayer hrest]
    rw [List.foldl_cons, ih (hc.merge hlayer) hrest, hall, merge_assoc hc hlayer hmerged]

theorem mergeAll_append {earlier later : List Config} (he : ∀ layer ∈ earlier, layer.Ordered)
    (hl : ∀ layer ∈ later, layer.Ordered) :
    mergeAll (earlier ++ later) = (mergeAll earlier).merge (mergeAll later) := by
  rw [mergeAll, List.foldl_append]
  exact foldl_merge (ordered_foldl_merge ordered_default he) hl

/-- However layers are grouped, they come to the same configuration. -/
theorem Layers.merged_eq (layers : Layers) (h : ∀ layer ∈ layers.toList, layer.Ordered) :
    layers.merged = mergeAll layers.toList := by
  induction layers with
  | one c => exact (default_merge c).symm
  | group earlier later ihe ihl =>
    have he : ∀ layer ∈ earlier.toList, layer.Ordered :=
      fun layer hlayer ↦ h layer (List.mem_append_left _ hlayer)
    have hl : ∀ layer ∈ later.toList, layer.Ordered :=
      fun layer hlayer ↦ h layer (List.mem_append_right _ hlayer)
    rw [merged, toList, ihe he, ihl hl, mergeAll_append he hl]

/-! ## The environment as a layer -/

/-- The time limit that an environment tells, if it tells one. -/
def environmentLimit (env : String → Option String) : Except Decimal.ParseError (Option Nat) :=
  match env timeoutVariable with
  | none => .ok none
  | some text => (Decimal.parse (Text.trim text.toList)).map some

/-- The layer that holds the settings of an environment, with a time limit, and nothing else. -/
def environmentLayer (env : String → Option String) (limit : Option Nat) : Config :=
  { url := env urlVariable
    agentId := env agentIdVariable
    bearerToken := env bearerTokenVariable
    timeoutMs := limit }

theorem merge_environmentLayer (c : Config) (env : String → Option String) (limit : Option Nat) :
    c.merge (environmentLayer env limit) =
      { c with
        url := (env urlVariable).or c.url
        agentId := (env agentIdVariable).or c.agentId
        bearerToken := (env bearerTokenVariable).or c.bearerToken
        timeoutMs := limit.or c.timeoutMs } := by
  simp [merge, environmentLayer, mergeHeaders_none]

/-- What is written over a configuration from the environment might as well be merged with it. -/
theorem override_eq (c : Config) (env : String → Option String) :
    c.override env =
      match environmentLimit env with
      | .ok limit => (c.merge (environmentLayer env limit), none)
      | .error e => (c.merge (environmentLayer env none),
          some (.config (.invalidValue timeoutVariable e.message))) := by
  simp only [merge_environmentLayer]
  rw [override, environmentLimit]
  -- each variable is set or not, and is looked up once
  cases env timeoutVariable with
  | none =>
    cases env urlVariable <;> cases env agentIdVariable <;> cases env bearerTokenVariable <;> rfl
  | some text =>
    dsimp only
    cases Decimal.parse (Text.trim text.toList) <;> cases env urlVariable <;>
      cases env agentIdVariable <;> cases env bearerTokenVariable <;> rfl

/-- **Layers.** Configurations that are in order form a monoid: to merge them keeps them in order
and is associative, and the configuration in which everything is left out is the unit on both sides.
What comes of merging is told setting by setting and header by header, and the later layer wins. So
layers come to the same however they are grouped.

The environment is a layer with four settings. If it tells no time limit or one that is a number,
writing it over a configuration succeeds and gives what merging that layer would give; otherwise the
three other settings are merged, and the number is refused. -/
theorem merge_layers :
    (∀ a b c : Config, a.Ordered → b.Ordered → c.Ordered →
      (a.merge b).Ordered ∧ (a.merge b).merge c = a.merge (b.merge c)) ∧
    (∀ c : Config, c.merge {} = c ∧ merge {} c = c) ∧
    (∀ base later : Config, later.Ordered → Overlaid base later (base.merge later)) ∧
    (∀ layers : Layers, (∀ layer ∈ layers.toList, layer.Ordered) →
      layers.merged = mergeAll layers.toList) ∧
    ∀ (c : Config) env,
      (∀ limit, environmentLimit env = .ok limit →
        c.override env = (c.merge (environmentLayer env limit), none)) ∧
      ∀ e, environmentLimit env = .error e →
        c.override env = (c.merge (environmentLayer env none),
          some (.config (.invalidValue timeoutVariable e.message))) := by
  refine ⟨fun _ _ _ ha hb hc ↦ ⟨ha.merge hb, merge_assoc ha hb hc⟩,
    fun c ↦ ⟨merge_default c, default_merge c⟩, fun _ _ hlater ↦ overlaid_merge hlater,
    Layers.merged_eq, fun c env ↦ ⟨fun limit h ↦ ?_, fun e h ↦ ?_⟩⟩
  · rw [override_eq, h]
  · rw [override_eq, h]

/-- Three layers with a header in common. The second has no address and the third no headers but
those it adds; the environment tells a time limit with blanks around it. -/
theorem merge_layers_three :
    let base : Config := { url := some "http://a", headers := some [("A", "1"), ("B", "1")] }
    let middle : Config := { headers := some [("B", "2"), ("C", "2")], timeoutMs := some 5 }
    let last : Config := { url := some "http://b", headers := some [("A", "3")] }
    let env := fun name ↦ if name = timeoutVariable then some " +2500
" else none
    let merged : Config :=
      { url := some "http://b", headers := some [("A", "3"), ("B", "2"), ("C", "2")],
        timeoutMs := some 2500 }
    (Layers.group (.one base) (.group (.one middle) (.one last))).merged =
        (Layers.group (.group (.one base) (.one middle)) (.one last)).merged ∧
      ((base.merge middle).merge last).override env = (merged, none) ∧
      (base.merge (middle.merge last)).header? "A" = some "3" := by
  intro base middle last env merged
  obtain ⟨hmonoid, -, hoverlaid, hgroups, henv⟩ := merge_layers
  have hbase : base.Ordered := fun _ h ↦ Option.some.inj h ▸ by decide
  have hmiddle : middle.Ordered := fun _ h ↦ Option.some.inj h ▸ by decide
  have hlast : last.Ordered := fun _ h ↦ Option.some.inj h ▸ by decide
  have hall : ∀ layer ∈ [base, middle, last], layer.Ordered := by
    simp [hbase, hmiddle, hlast]
  refine ⟨?_, ?_, ?_⟩
  · rw [hgroups (.group (.one base) (.group (.one middle) (.one last))) hall,
      hgroups (.group (.group (.one base) (.one middle)) (.one last)) hall]
    rfl
  · rw [(henv _ env).1 (some 2500) rfl]
    decide
  · have hlater := (hmonoid middle last base hmiddle hlast hbase).1
    rw [(hoverlaid base (middle.merge last) hlater).header]
    decide

end Config

end AgentSession
