import WindowedMean.Config.Formats
import WindowedMean.Proofs.Messages

/-! Configurations that say only some of the settings.

    An object of settings is the standard configuration with these settings made and no others:

        {"nodes": 5, "metrics": true}

        nodes                5     made
        metrics              true  made
        window_capacity      500   standard
        …

    It does not matter which settings there are, in what order they come and what their values are,
    as long as each of them fits. What is refused is a name that is no setting, and a setting that is
    made twice, wherever in the object. -/

namespace WindowedMean

open Json (Value Token Reader Schema Field Spells IsValue objectTokens)

namespace Setting

/-- The key of a setting. -/
def key : Setting → ConfigKey
  | .windowCapacity _ => .windowCapacity
  | .valueRange _ => .valueRange
  | .reduceIntervalMs _ => .reduceIntervalMs
  | .nodes _ => .nodes
  | .queueCapacity _ => .queueCapacity
  | .batchSize _ => .batchSize
  | .nodeTimeoutMs _ => .nodeTimeoutMs
  | .producerPauseMs _ => .producerPauseMs
  | .producerSeed _ => .producerSeed
  | .bind _ => .bind
  | .metrics _ => .metrics

/-- The value of a setting as JSON; no seed is null. -/
def value : Setting → Value
  | .windowCapacity n | .reduceIntervalMs n | .nodes n | .queueCapacity n | .batchSize n
  | .nodeTimeoutMs n | .producerPauseMs n | .producerSeed (some n) => .nat n
  | .valueRange n => .int n
  | .producerSeed none => .null
  | .bind s => .string s
  | .metrics b => .flag b

/-- The value of a setting fits into the words that it is kept in. -/
def InRange : Setting → Prop
  | .windowCapacity n | .reduceIntervalMs n | .nodes n | .queueCapacity n | .batchSize n
  | .nodeTimeoutMs n | .producerPauseMs n | .producerSeed (some n) => n ≤ sizeLimit
  | .valueRange n => Fits n
  | .producerSeed none | .bind _ | .metrics _ => True

/-- A setting as a field of an object. -/
def field (s : Setting) : String × Value := (s.key.name, s.value)

theorem plain_value (s : Setting) : s.value.Plain := by
  have hnat (n : Nat) : (Value.nat n).Plain := Value.plain_int n
  cases s with
  | producerSeed n =>
    cases n with
    | none => exact .null
    | some n => exact hnat n
  | valueRange n => exact Value.plain_int n
  | bind s => exact .string s
  | metrics b => exact .flag b
  | _ n => exact hnat n

end Setting

namespace Config

/-- The setting of a configuration under a key. -/
def get (c : Config) : ConfigKey → Setting
  | .windowCapacity => .windowCapacity c.windowCapacity
  | .valueRange => .valueRange c.valueRange
  | .reduceIntervalMs => .reduceIntervalMs c.reduceIntervalMs
  | .nodes => .nodes c.nodes
  | .queueCapacity => .queueCapacity c.queueCapacity
  | .batchSize => .batchSize c.batchSize
  | .nodeTimeoutMs => .nodeTimeoutMs c.nodeTimeoutMs
  | .producerPauseMs => .producerPauseMs c.producerPauseMs
  | .producerSeed => .producerSeed c.producerSeed
  | .bind => .bind c.bind
  | .metrics => .metrics c.metrics

/-- A configuration is known by its settings. -/
theorem ext_get {c d : Config} (h : ∀ k, c.get k = d.get k) : c = d := by
  ext1
  case windowCapacity => exact Setting.windowCapacity.inj (h .windowCapacity)
  case valueRange => exact Setting.valueRange.inj (h .valueRange)
  case reduceIntervalMs => exact Setting.reduceIntervalMs.inj (h .reduceIntervalMs)
  case nodes => exact Setting.nodes.inj (h .nodes)
  case queueCapacity => exact Setting.queueCapacity.inj (h .queueCapacity)
  case batchSize => exact Setting.batchSize.inj (h .batchSize)
  case nodeTimeoutMs => exact Setting.nodeTimeoutMs.inj (h .nodeTimeoutMs)
  case producerPauseMs => exact Setting.producerPauseMs.inj (h .producerPauseMs)
  case producerSeed => exact Setting.producerSeed.inj (h .producerSeed)
  case bind => exact Setting.bind.inj (h .bind)
  case metrics => exact Setting.metrics.inj (h .metrics)

/-- A setting changes what is under its key and nothing else. -/
theorem get_set (c : Config) (s : Setting) (k : ConfigKey) :
    (c.set s).get k = if k = s.key then s else c.get k := by
  cases s <;> cases k <;> rfl

/-- What is not set is as in the standard configuration. -/
theorem unset_eq_standard : unset = standard := rfl

/-- The configuration has these settings and is otherwise the standard one. -/
structure Replaces (c : Config) (settings : List Setting) : Prop where
  made : ∀ s ∈ settings, c.get s.key = s
  kept : ∀ k, k ∉ settings.map Setting.key → c.get k = standard.get k

theorem Replaces.eq_standard {c : Config} (h : c.Replaces []) : c = standard :=
  ext_get fun k => h.kept k List.not_mem_nil

/-- Making settings under other keys leaves a setting as it is. -/
theorem get_foldl_of_not_mem {settings : List Setting} {k : ConfigKey} (c : Config)
    (h : k ∉ settings.map Setting.key) : (settings.foldl set c).get k = c.get k := by
  induction settings generalizing c with
  | nil => rfl
  | cons s settings ih =>
    rw [List.map_cons, List.mem_cons, not_or] at h
    rw [List.foldl_cons, ih _ h.2, get_set, if_neg h.1]

theorem replaces_ofSettings {settings : List Setting} (hn : (settings.map Setting.key).Nodup) :
    (ofSettings settings).Replaces settings := by
  constructor
  · intro s hs
    obtain ⟨earlier, later, rfl⟩ := List.append_of_mem hs
    have hlater : s.key ∉ later.map Setting.key := by
      rw [List.map_append, List.map_cons] at hn
      exact (List.nodup_cons.1 hn.of_append_right).1
    rw [ofSettings, List.foldl_append, List.foldl_cons, get_foldl_of_not_mem _ hlater, get_set,
      if_pos rfl]
  · intro k hk
    rw [ofSettings, get_foldl_of_not_mem _ hk, unset_eq_standard]

/-! ### Reading settings -/

theorem read_local (k : ConfigKey) : (schema.read k).Local := by
  cases k <;> exact Reader.one_local rfl rfl

/-- A setting is one token, which the setting is made from. -/
theorem ofToken_value {s : Setting} (h : s.InRange) :
    ∃ t, s.value.tokens = [t] ∧ s.key.ofToken t = .ok s := by
  cases s with
  | valueRange n => exact ⟨_, rfl, congrArg (Except.map Setting.valueRange) (Json.event_ofInt h)⟩
  | producerSeed n =>
    cases n with
    | none => exact ⟨.null, rfl, rfl⟩
    | some n =>
      exact ⟨_, rfl,
        congrArg (fun r => (r.map some).map Setting.producerSeed) (Json.size_ofInt h)⟩
  | bind s =>
    refine ⟨.string (some s.toList), rfl, congrArg (fun s => Except.ok (Setting.bind s)) ?_⟩
    exact String.ofList_toList
  | metrics b => exact ⟨.flag b, rfl, rfl⟩
  | _ n => exact ⟨_, rfl, congrArg (Except.map _) (Json.size_ofInt h)⟩

theorem read_value {s : Setting} (h : s.InRange) :
    schema.read s.key s.value.tokens = .ok (s, []) := by
  obtain ⟨t, htokens, ht⟩ := ofToken_value h
  rw [htokens]
  exact congrArg (Except.map (·, [])) ht

theorem field_name (k : ConfigKey) : schema.field? k.name.toList = some k := by
  cases k <;> rfl

theorem name_eq_of_field {name : List Char} {k : ConfigKey} (h : schema.field? name = some k) :
    name = k.name.toList := by
  obtain ⟨k', -, heq⟩ := List.mem_map.1 (Schema.name_of_field h)
  obtain ⟨hname, rfl⟩ := Prod.mk.inj heq
  rw [hname, String.toList_ofList]

theorem reads_settings {settings : List Setting} (h : ∀ s ∈ settings, s.InRange) :
    schema.Reads (Value.object (settings.map Setting.field)).fields
      (settings.map fun s => (s.key, s)) := by
  induction settings with
  | nil => exact .nil
  | cons s settings ih =>
    exact .take (field_name s.key) (read_value (h s (List.mem_cons_self ..)))
      (ih fun t ht => h t (List.mem_cons_of_mem s ht))

/-- Where unknown names are refused, every field is known. -/
theorem known_of_reads {fields : List Field} {found : List (ConfigKey × Setting)}
    (h : schema.Reads fields found) : ∀ f ∈ fields, ∃ k : ConfigKey, f.name = some k.name.toList := by
  induction h with
  | nil => exact List.forall_mem_nil _
  | skip _ hs => cases hs
  | take hk _ _ ih => exact List.forall_mem_cons.2 ⟨⟨_, congrArg some (name_eq_of_field hk)⟩, ih⟩

/-- A text that spells an object of settings is the configuration with these settings. -/
theorem ofJson_of_settings {settings : List Setting} {text : String}
    (hn : (settings.map Setting.key).Nodup) (hr : ∀ s ∈ settings, s.InRange)
    (h : Spells (objectTokens (Value.object (settings.map Setting.field)).fields) text.toList) :
    ofJson text = .ok (ofSettings settings) := by
  have hplain : (Value.object (settings.map Setting.field)).Plain :=
    .object (List.forall_mem_map.2 fun s _ => s.plain_value)
  have hread := (Schema.ofTokens_object_eq_ok_iff read_local hplain.fields_isValue).2
    ⟨reads_settings hr, by rwa [List.map_map], rfl⟩
  rw [ofJson, Json.lex_of_spells h, ofTokens, hread]
  change Except.ok (ofSettings ((settings.map fun s => (s.key, s)).map (·.2))) = _
  rw [List.map_map]
  exact congrArg (fun row => Except.ok (ofSettings row)) (List.map_id settings)

/-- A text that spells an object with a name that is no setting, or with one name twice, is refused. -/
theorem ofJson_of_misnamed {fields : List Field} {text : String} (hv : ∀ f ∈ fields, IsValue f.value)
    (hbad : (∃ f ∈ fields, ∀ k : ConfigKey, f.name ≠ some k.name.toList) ∨
      ∃ f g, [f, g].Sublist fields ∧ f.name = g.name)
    (h : Spells (objectTokens fields) text.toList) : ∃ e, ofJson text = .error e := by
  rw [ofJson, Json.lex_of_spells h, ofTokens]
  cases hread : schema.ofTokens (objectTokens fields) with
  | error e => exact ⟨e, rfl⟩
  | ok found =>
    obtain ⟨hreads, hn, -⟩ := (Schema.ofTokens_object_eq_ok_iff read_local hv).1 hread
    rcases hbad with ⟨f, hf, hnot⟩ | ⟨f, g, hsub, hfg⟩
    · obtain ⟨k, hk⟩ := known_of_reads hreads f hf
      exact absurd hk (hnot k)
    · obtain ⟨k, hk⟩ := known_of_reads hreads f (hsub.subset (List.mem_cons_self ..))
      exact absurd hn (hreads.not_nodup hsub hk (hfg ▸ hk) (field_name k))

/-- Any settings in any order are the standard configuration with these settings made, none are the
    standard configuration itself, and nothing else may stand among them. -/
theorem ofJson_replaces_standard :
    (∀ (settings : List Setting) (text : String), (settings.map Setting.key).Nodup →
      (∀ s ∈ settings, s.InRange) →
      Spells (objectTokens (Value.object (settings.map Setting.field)).fields) text.toList →
      ∃ c, ofJson text = .ok c ∧ c.Replaces settings) ∧
    (∀ text : String, Spells (objectTokens []) text.toList → ofJson text = .ok standard) ∧
    ∀ (fields : List Field) (text : String), (∀ f ∈ fields, IsValue f.value) →
      Spells (objectTokens fields) text.toList →
      ((∃ f ∈ fields, ∀ k : ConfigKey, f.name ≠ some k.name.toList) ∨
        ∃ f g, [f, g].Sublist fields ∧ f.name = g.name) →
      ∃ e, ofJson text = .error e := by
  have hmade (settings : List Setting) (text : String) (hn : (settings.map Setting.key).Nodup)
      (hr : ∀ s ∈ settings, s.InRange)
      (h : Spells (objectTokens (Value.object (settings.map Setting.field)).fields) text.toList) :
      ∃ c, ofJson text = .ok c ∧ c.Replaces settings :=
    ⟨_, ofJson_of_settings hn hr h, replaces_ofSettings hn⟩
  refine ⟨hmade, fun text h => ?_, fun fields text hv h hbad => ofJson_of_misnamed hv hbad h⟩
  obtain ⟨c, hc, hnone⟩ := hmade [] text .nil (List.forall_mem_nil _) h
  rw [hc, hnone.eq_standard]

/-- Three settings against their order, none at all, a name that is no setting, and a setting made
    twice. -/
theorem ofJson_replaces_standard_of_three :
    ([.producerSeed none, .nodes 5, .valueRange least].map Setting.key).Nodup ∧
      (∀ s ∈ [Setting.producerSeed none, .nodes 5, .valueRange least], s.InRange) ∧
      (∃ c, ofJson (Value.object [("producer_seed", .null), ("nodes", .nat 5),
        ("value_range", .int least)]).text = .ok c ∧
          c.Replaces [.producerSeed none, .nodes 5, .valueRange least]) ∧
      ofJson (Value.object []).text = .ok standard ∧
      (∃ e, ofJson (Value.object [("node", .null), ("nodes", .nat 5)]).text = .error e) ∧
      ∃ e, ofJson (Value.object [("nodes", .nat 5), ("nodes", .nat 5)]).text = .error e := by
  have hkeys : ([.producerSeed none, .nodes 5, .valueRange least].map Setting.key).Nodup := by decide
  have hrange : ∀ s ∈ [Setting.producerSeed none, .nodes 5, .valueRange least], s.InRange := by
    refine List.forall_mem_cons.2 ⟨trivial, List.forall_mem_cons.2 ⟨?_, List.forall_mem_singleton.2 ?_⟩⟩
    · exact (by decide : 5 ≤ sizeLimit)
    · exact (by decide : Fits least)
  have hthree : (Value.object [("producer_seed", .null), ("nodes", .nat 5),
      ("value_range", .int least)]).Plain :=
    .object (by simp [Value.Plain.null, Value.nat, Value.plain_int])
  have hnone : (Value.object []).Plain := .object (List.forall_mem_nil _)
  have hother : (Value.object [("node", .null), ("nodes", .nat 5)]).Plain :=
    .object (by simp [Value.Plain.null, Value.nat, Value.plain_int])
  have htwice : (Value.object [("nodes", .nat 5), ("nodes", .nat 5)]).Plain :=
    .object (by simp [Value.nat, Value.plain_int])
  obtain ⟨hmade, hempty, hrefused⟩ := ofJson_replaces_standard
  refine ⟨hkeys, hrange, hmade _ _ hkeys hrange hthree.spells_text, hempty _ hnone.spells_text,
    hrefused _ _ hother.fields_isValue hother.spells_text (.inl ?_),
    hrefused _ _ htwice.fields_isValue htwice.spells_text (.inr ⟨_, _, .refl _, rfl⟩)⟩
  exact ⟨_, List.mem_cons_self .., fun k => by cases k <;> decide⟩

end Config

end WindowedMean
