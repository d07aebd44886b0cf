import Mathlib.Data.List.Find
import WindowedMean.Config.Load

/-! Where a configuration comes from.

    The environment says which *sources* there are to look at, in their order, and the first one that
    is there is the only one that is read:

        the path is set      that file
        it is not            config/running_average.toml, config/running_average.json, the standard

    What it holds has to make sense before anything is overridden, and again afterwards. So an
    override cannot mend a source, and a source further down cannot stand in for one that fails. What
    is loaded is the configuration of the source but for the four settings that the environment may
    make, and of these only those that it does make. -/

namespace WindowedMean

/-! ### Numbers in texts -/

namespace Text

/-- A row of characters that is a number of 64 bits: decimal digits, at least one, perhaps behind a
    plus sign. -/
def IsUnsigned (cs : List Char) (n : Nat) : Prop :=
  ∃ ds, (cs = ds ∨ cs = '+' :: ds) ∧ ds ≠ [] ∧ (∀ c ∈ ds, c.isDigit) ∧
    Decimal.digitsValue ds = n ∧ n ≤ sizeLimit

theorem le_ofDigitChars (cs : List Char) (n : Nat) : n ≤ Nat.ofDigitChars 10 cs n := by
  induction cs generalizing n with
  | nil => exact Nat.le_refl n
  | cons c cs ih =>
    rw [Nat.ofDigitChars_cons]
    have hlater := ih (10 * n + (c.toNat - '0'.toNat))
    omega

theorem digitsFrom_eq_ok_iff {cs : List Char} {n m : Nat} (hn : n ≤ sizeLimit) :
    digitsFrom n cs = .ok m ↔
      (∀ c ∈ cs, c.isDigit) ∧ Nat.ofDigitChars 10 cs n = m ∧ m ≤ sizeLimit := by
  induction cs generalizing n with
  | nil =>
    rw [digitsFrom, Nat.ofDigitChars_nil, Except.ok.injEq]
    constructor
    · rintro rfl
      exact ⟨List.forall_mem_nil _, rfl, hn⟩
    · exact fun h => h.2.1
  | cons c cs ih =>
    rw [digitsFrom, Nat.ofDigitChars_cons, List.forall_mem_cons]
    by_cases hc : c.isDigit
    · rw [if_pos hc]
      dsimp only
      by_cases hroom : 10 * n + (c.toNat - '0'.toNat) ≤ sizeLimit
      · rw [if_pos hroom, ih hroom]
        exact ⟨fun h => ⟨⟨hc, h.1⟩, h.2⟩, fun h => ⟨h.1.2, h.2⟩⟩
      · -- Further digits only make the number greater.
        rw [if_neg hroom]
        have hle := le_ofDigitChars cs (10 * n + (c.toNat - '0'.toNat))
        constructor
        · intro h
          cases h
        · rintro ⟨-, rfl, hm⟩
          exact absurd (Nat.le_trans hle hm) hroom
    · rw [if_neg hc]
      constructor
      · intro h
        cases h
      · exact fun h => absurd h.1.1 hc

theorem digitsFrom_zero_eq_ok_iff {cs : List Char} {n : Nat} :
    digitsFrom 0 cs = .ok n ↔ (∀ c ∈ cs, c.isDigit) ∧ Decimal.digitsValue cs = n ∧ n ≤ sizeLimit :=
  digitsFrom_eq_ok_iff (Nat.zero_le _)

theorem unsignedChars_eq_ok_iff {cs : List Char} {n : Nat} :
    unsignedChars cs = .ok n ↔ IsUnsigned cs n := by
  unfold unsignedChars
  split
  · constructor
    · intro h
      cases h
    · rintro ⟨ds, rfl | h, hne, -⟩
      · exact absurd rfl hne
      · cases h
  · constructor
    · intro h
      cases h
    · rintro ⟨ds, rfl | h, hne, hds, -⟩
      · exact absurd (hds '+' (List.mem_singleton_self _)) (by decide)
      · cases h
        exact absurd rfl hne
  · next cs hne =>
    rw [digitsFrom_zero_eq_ok_iff]
    constructor
    · exact fun h => ⟨cs, .inr rfl, fun hnil => hne (by rw [hnil]), h⟩
    · rintro ⟨ds, rfl | h, -, hds, hn⟩
      · exact absurd (hds '+' (List.mem_cons_self ..)) (by decide)
      · cases h
        exact ⟨hds, hn⟩
  · next hnil _ hplus =>
    rw [digitsFrom_zero_eq_ok_iff]
    constructor
    · exact fun h => ⟨cs, .inl rfl, hnil, h⟩
    · rintro ⟨ds, rfl | h, -, hds⟩
      · exact hds
      · exact absurd h (hplus ds)

end Text

namespace Config

/-! ### Overrides -/

/-- The values of a configuration make sense together. -/
def Sensible (c : Config) : Prop :=
  0 < c.windowCapacity ∧ 0 < c.valueRange ∧ 0 < c.nodes ∧ 0 < c.queueCapacity ∧
    0 < c.batchSize ∧ 0 < c.reduceIntervalMs

instance (c : Config) : Decidable c.Sensible :=
  inferInstanceAs (Decidable (0 < c.windowCapacity ∧ 0 < c.valueRange ∧ 0 < c.nodes ∧
    0 < c.queueCapacity ∧ 0 < c.batchSize ∧ 0 < c.reduceIntervalMs))

theorem checked_eq_ok_iff {c d : Config} : c.checked = .ok d ↔ c = d ∧ c.Sensible := by
  rw [Sensible, ← validate_eq_ok_iff, checked]
  rcases c.validate with _ | ⟨⟨⟩⟩ <;> simp

/-- What becomes of a setting: a variable that is not set leaves it, one that is set replaces it by
    what the trimmed text means. -/
def Replaced {α : Type} (v : Option String) (means : String → α → Prop) (old new : α) : Prop :=
  match v with
  | none => new = old
  | some text => means (Text.trim text) new

/-- One configuration is the other with the settings of the environment. -/
structure Overridden (env : Environment) (b c : Config) : Prop where
  nodes : Replaced (env nodesVariable) (Text.IsUnsigned ·.toList ·) b.nodes c.nodes
  windowCapacity : Replaced (env windowVariable) (Text.IsUnsigned ·.toList ·)
    b.windowCapacity c.windowCapacity
  bind : Replaced (env bindVariable) (fun text s => s = text) b.bind c.bind
  metrics : Replaced (env metricsVariable) (fun text on => on = true ↔ text = "1")
    b.metrics c.metrics
  others : c = { b with
    nodes := c.nodes, windowCapacity := c.windowCapacity, bind := c.bind, metrics := c.metrics }

theorem override_eq_ok_iff {α : Type} {v : Option String} {read : String → Except LoadError α}
    {put : Config → α → Config} {means : String → α → Prop} {b c : Config} {old : α}
    (hread : ∀ text a, read text = .ok a ↔ means (Text.trim text) a) (hput : put b old = b) :
    override v read put b = .ok c ↔ ∃ a, Replaced v means old a ∧ c = put b a := by
  cases v with
  | none =>
    constructor
    · intro h
      cases h
      exact ⟨old, rfl, hput.symm⟩
    · rintro ⟨a, rfl, rfl⟩
      exact congrArg Except.ok hput.symm
  | some text =>
    rw [override]
    constructor
    · intro h
      cases hr : read text with
      | error e => rw [hr] at h; cases h
      | ok a =>
        rw [hr] at h
        cases h
        exact ⟨a, (hread text a).1 hr, rfl⟩
    · rintro ⟨a, ha, rfl⟩
      rw [(hread text a).2 ha]
      rfl

theorem readNumber_eq_ok_iff (failure : String → Text.NumberFault → LoadError) (text : String)
    (n : Nat) : readNumber failure text = .ok n ↔ Text.IsUnsigned (Text.trim text).toList n := by
  rw [readNumber, ← Text.unsignedChars_eq_ok_iff, Text.unsigned]
  cases Text.unsignedChars (Text.trim text).toList <;> simp

theorem bind_eq_ok_iff {ε α β : Type} {x : Except ε α} {f : α → Except ε β} {b : β} :
    (x >>= f) = .ok b ↔ ∃ a, x = .ok a ∧ f a = .ok b := by
  cases x <;> simp [Bind.bind, Except.bind]

theorem overrideAll_eq_ok_iff {env : Environment} {b c : Config} :
    overrideAll env b = .ok c ↔ Overridden env b c := by
  have hnodes (b c : Config) :
      override (env nodesVariable) (readNumber .badNodes) (fun c n => c.set (.nodes n)) b = .ok c ↔
        ∃ n, Replaced (env nodesVariable) (Text.IsUnsigned ·.toList ·) b.nodes n ∧
          c = b.set (.nodes n) :=
    override_eq_ok_iff (readNumber_eq_ok_iff .badNodes) rfl
  have hwindow (b c : Config) :
      override (env windowVariable) (readNumber .badWindow)
          (fun c n => c.set (.windowCapacity n)) b = .ok c ↔
        ∃ n, Replaced (env windowVariable) (Text.IsUnsigned ·.toList ·) b.windowCapacity n ∧
          c = b.set (.windowCapacity n) :=
    override_eq_ok_iff (readNumber_eq_ok_iff .badWindow) rfl
  have hbind (b c : Config) :
      override (env bindVariable) (fun s => .ok (Text.trim s)) (fun c s => c.set (.bind s)) b =
          .ok c ↔
        ∃ s, Replaced (env bindVariable) (fun text s => s = text) b.bind s ∧ c = b.set (.bind s) :=
    override_eq_ok_iff (fun text s => by simp [eq_comm]) rfl
  have hmetrics (b c : Config) :
      override (env metricsVariable) (fun s => .ok (Text.trim s == "1"))
          (fun c on => c.set (.metrics on)) b = .ok c ↔
        ∃ on, Replaced (env metricsVariable) (fun text on => on = true ↔ text = "1") b.metrics on ∧
          c = b.set (.metrics on) :=
    override_eq_ok_iff (fun text on => by cases on <;> simp) rfl
  simp only [overrideAll, bind_eq_ok_iff, hnodes, hwindow, hbind, hmetrics]
  constructor
  · rintro ⟨_, ⟨n, hn, rfl⟩, _, ⟨w, hw, rfl⟩, _, ⟨s, hs, rfl⟩, on, hon, rfl⟩
    exact ⟨hn, hw, hs, hon, rfl⟩
  · intro h
    exact ⟨_, ⟨c.nodes, h.nodes, rfl⟩, _, ⟨c.windowCapacity, h.windowCapacity, rfl⟩, _,
      ⟨c.bind, h.bind, rfl⟩, c.metrics, h.metrics, h.others⟩

/-! ### Sources -/

/-- Where a configuration may come from before anything is overridden. -/
inductive Source where
  | file (path : String)
  | standard
  deriving DecidableEq, Repr

/-- The sources that an environment leaves to look at, in their order. -/
def sources (env : Environment) : List Source :=
  match env pathVariable with
  | some path => [.file path]
  | none => [.file tomlPath, .file jsonPath, .standard]

/-- There is something at the source. -/
def Source.isThere (fs : FileSystem) : Source → Bool
  | .file path => (fs path).isSome
  | .standard => true

/-- The first source that is there. -/
def source? (fs : FileSystem) (env : Environment) : Option Source :=
  (sources env).find? (·.isThere fs)

/-- The source holds the configuration: it is what the text of the file reads as. -/
def Source.Holds (f : Formats) (fs : FileSystem) : Source → Config → Prop
  | .file path, c => ∃ bytes text, fs path = some (.file bytes) ∧
      String.fromUTF8? bytes = some text ∧
      (if namesJson path then f.json text else f.toml text) = some c
  | .standard, c => c = .standard

/-- What a source is loaded as. -/
def Source.load (f : Formats) (fs : FileSystem) : Source → Except LoadError Config
  | .file path => loadFile f fs path
  | .standard => .ok .standard

theorem sensible_standard : Sensible .standard := by decide

theorem readText_eq_some_iff {fs : FileSystem} {path text : String} :
    readText fs path = some text ↔
      ∃ bytes, fs path = some (.file bytes) ∧ String.fromUTF8? bytes = some text := by
  rw [readText]
  rcases fs path with _ | _ | bytes <;> simp

theorem readFile_eq_ok_iff {f : Formats} {fs : FileSystem} {path : String} {c : Config} :
    readFile f fs path = .ok c ↔ (Source.file path).Holds f fs c := by
  have hread : readFile f fs path = .ok c ↔ ∃ text, readText fs path = some text ∧
      (if namesJson path then f.json text else f.toml text) = some c := by
    rw [readFile]
    cases readText fs path with
    | none => simp
    | some text =>
      by_cases hj : namesJson path
      · simp only [Option.some.injEq, exists_eq_left', if_pos hj]
        cases f.json text <;> simp
      · simp only [Option.some.injEq, exists_eq_left', if_neg hj]
        cases f.toml text <;> simp
  simp only [hread, readText_eq_some_iff, Source.Holds]
  constructor
  · rintro ⟨text, ⟨bytes, hfile, htext⟩, hc⟩
    exact ⟨bytes, text, hfile, htext, hc⟩
  · rintro ⟨bytes, text, hfile, htext, hc⟩
    exact ⟨text, ⟨bytes, hfile, htext⟩, hc⟩

theorem Source.load_eq_ok_iff {f : Formats} {fs : FileSystem} {s : Source} {c : Config} :
    s.load f fs = .ok c ↔ s.Holds f fs c ∧ c.Sensible := by
  cases s with
  | standard =>
    rw [load, Holds, Except.ok.injEq]
    constructor
    · rintro rfl
      exact ⟨rfl, sensible_standard⟩
    · exact fun h => h.1.symm
  | file path =>
    rw [load, loadFile, ← readFile_eq_ok_iff]
    cases readFile f fs path with
    | error e => simp
    | ok d =>
      dsimp only
      rw [checked_eq_ok_iff, Except.ok.injEq]
      constructor
      · rintro ⟨rfl, h⟩
        exact ⟨rfl, h⟩
      · rintro ⟨rfl, h⟩
        exact ⟨rfl, h⟩

/-- The base is what the first source that is there is loaded as. -/
theorem base_eq (f : Formats) (fs : FileSystem) (env : Environment) :
    base f fs env =
      match source? fs env with
      | some s => s.load f fs
      | none => .error .missing := by
  rw [base, source?, sources]
  cases env pathVariable with
  | some path =>
    by_cases hp : (fs path).isSome <;> simp [Source.isThere, Source.load, hp]
  | none =>
    by_cases ht : (fs tomlPath).isSome <;> by_cases hj : (fs jsonPath).isSome <;>
      simp [Source.isThere, Source.load, ht, hj]

theorem base_eq_ok_iff {f : Formats} {fs : FileSystem} {env : Environment} {b : Config} :
    base f fs env = .ok b ↔ ∃ s, source? fs env = some s ∧ s.Holds f fs b ∧ b.Sensible := by
  rw [base_eq]
  cases source? fs env with
  | none => simp
  | some s =>
    dsimp only
    rw [Source.load_eq_ok_iff]
    simp

theorem load_eq_ok_iff {f : Formats} {fs : FileSystem} {env : Environment} {c : Config} :
    load f fs env = .ok c ↔ ∃ s b, source? fs env = some s ∧ s.Holds f fs b ∧ b.Sensible ∧
      Overridden env b c ∧ c.Sensible := by
  simp only [load, bind_eq_ok_iff, base_eq_ok_iff, overrideAll_eq_ok_iff, checked_eq_ok_iff]
  constructor
  · rintro ⟨b, ⟨s, hs, hholds, hb⟩, c, hover, rfl, hc⟩
    exact ⟨s, b, hs, hholds, hb, hover, hc⟩
  · rintro ⟨s, b, hs, hholds, hb, hover, hc⟩
    exact ⟨b, ⟨s, hs, hholds, hb⟩, c, hover, rfl, hc⟩

/-- What is loaded is settled at the first source that is there: nothing behind it is looked at. -/
theorem load_congr {f : Formats} {fs fs' : FileSystem} {env : Environment} {s : Source}
    {before after : List Source} (hsources : sources env = before ++ s :: after)
    (hs : s.isThere fs) (hsame : ∀ path, .file path ∈ before ++ [s] → fs' path = fs path) :
    load f fs' env = load f fs env := by
  have hcongr : ∀ t ∈ before ++ [s], t.isThere fs' = t.isThere fs ∧ t.load f fs' = t.load f fs := by
    intro t ht
    cases t with
    | standard => exact ⟨rfl, rfl⟩
    | file path =>
      have hpath := hsame path ht
      refine ⟨congrArg Option.isSome hpath, ?_⟩
      rw [Source.load, Source.load, loadFile, loadFile, readFile, readFile, readText, readText, hpath]
  have hfind : (before ++ [s]).find? (·.isThere fs') = (before ++ [s]).find? (·.isThere fs) :=
    List.find?_congr fun t ht => (hcongr t ht).1
  obtain ⟨t, ht⟩ : ∃ t, (before ++ [s]).find? (·.isThere fs) = some t :=
    Option.isSome_iff_exists.1
      (List.find?_isSome.2 ⟨s, List.mem_append_right _ (List.mem_singleton_self s), hs⟩)
  have hfirst {fs'' : FileSystem} (h : (before ++ [s]).find? (·.isThere fs'') = some t) :
      source? fs'' env = some t := by
    rw [source?, hsources, ← List.singleton_append, ← List.append_assoc, List.find?_append, h]
    rfl
  have hbase : base f fs' env = base f fs env := by
    rw [base_eq, base_eq, hfirst ht, hfirst (hfind.trans ht)]
    exact (hcongr t (List.mem_of_find?_eq_some ht)).2
  rw [load, load, hbase]

/-- A source that fails is not stood in for. -/
theorem load_of_source_error {f : Formats} {fs : FileSystem} {env : Environment} {s : Source}
    (hs : source? fs env = some s) (h : ¬ ∃ b, s.Holds f fs b ∧ b.Sensible) :
    ∃ e, s.load f fs = .error e ∧ load f fs env = .error e := by
  cases hload : s.load f fs with
  | ok b => exact absurd ⟨b, Source.load_eq_ok_iff.1 hload⟩ h
  | error e =>
    refine ⟨e, rfl, ?_⟩
    rw [load, base_eq, hs]
    dsimp only
    rw [hload]
    rfl

/-- For all formats, files and environments: a configuration is loaded exactly if the first source that
    is there holds one that makes sense on its own, the numbers in the environment are numbers, and
    what comes of the overrides makes sense; and it is the one of that source but for what the
    environment sets. So what is loaded always makes sense, a source that fails is the failure of the
    whole, and it makes no difference what lies behind a source that is there. -/
theorem load_precedence (f : Formats) (fs : FileSystem) (raw : RawEnvironment) :
    let env := raw.seen
    (∀ c, load f fs env = .ok c ↔ ∃ s b, source? fs env = some s ∧ s.Holds f fs b ∧ b.Sensible ∧
      Overridden env b c ∧ c.Sensible) ∧
    (∀ c, load f fs env = .ok c → 0 < c.windowCapacity ∧ 0 < c.valueRange ∧ 0 < c.nodes ∧
      0 < c.queueCapacity ∧ 0 < c.batchSize ∧ 0 < c.reduceIntervalMs) ∧
    (∀ s, source? fs env = some s → (¬ ∃ b, s.Holds f fs b ∧ b.Sensible) →
      ∃ e, s.load f fs = .error e ∧ load f fs env = .error e) ∧
    (∀ path, env pathVariable = some path → fs path = none → load f fs env = .error .missing) ∧
    ∀ before s after, sources env = before ++ s :: after → s.isThere fs →
      ∀ fs' : FileSystem, (∀ path, .file path ∈ before ++ [s] → fs' path = fs path) →
        load f fs' env = load f fs env := by
  intro env
  refine ⟨fun c => load_eq_ok_iff, ?_, fun s => load_of_source_error, ?_, ?_⟩
  · intro c h
    obtain ⟨s, b, -, -, -, -, hc⟩ := load_eq_ok_iff.1 h
    exact hc
  · intro path hpath hnone
    rw [load, base, hpath]
    dsimp only
    rw [hnone]
    rfl
  · exact fun before s after hsources hs fs' hsame => load_congr hsources hs hsame

/-- The path is set to what is no text, and so the first file counts. It is overridden, and the second
    one may hold anything. Where the path is set to the second file, that one fails for both. -/
theorem load_precedence_of_two_files :
    let f : Formats := ⟨fun _ => some { Config.standard with nodes := 0 },
      fun _ => some { Config.standard with valueRange := 7 }⟩
    let fs : FileSystem := fun path =>
      if path = tomlPath ∨ path = jsonPath then some (.file "text".toUTF8) else none
    let raw : RawEnvironment := fun name =>
      if name = pathVariable then some (.mk #[0xff])
      else if name = nodesVariable then some " +4\n".toUTF8
      else if name = metricsVariable then some "1".toUTF8 else none
    let named : RawEnvironment := fun name =>
      if name = pathVariable then some jsonPath.toUTF8
      else if name = nodesVariable then some "4".toUTF8 else none
    load f fs raw.seen =
      .ok { Config.standard with valueRange := 7, nodes := 4, metrics := true } ∧
    (∀ other, load f (fun path => if path = jsonPath then other else fs path) raw.seen =
      load f fs raw.seen) ∧
    ∃ e, load f fs named.seen = .error e := by
  intro f fs raw named
  obtain ⟨hload, -, -, -, hsame⟩ := load_precedence f fs raw
  obtain ⟨-, -, hfails, -, -⟩ := load_precedence f fs named
  have hraw : sources raw.seen = [.file tomlPath, .file jsonPath, .standard] := by decide +kernel
  have hnamed : sources named.seen = [.file jsonPath] := by decide +kernel
  refine ⟨?_, ?_, ?_⟩
  · refine (hload _).2 ⟨.file tomlPath, { Config.standard with valueRange := 7 }, ?_,
      ⟨_, "text", rfl, by decide +kernel, if_neg not_namesJson_tomlPath⟩, by decide, ?_, by decide⟩
    · rw [source?, hraw]
      rfl
    · have hnodes : raw.seen nodesVariable = some " +4\n" := by decide +kernel
      have hwindow : raw.seen windowVariable = none := by decide +kernel
      have hbind : raw.seen bindVariable = none := by decide +kernel
      have hmetrics : raw.seen metricsVariable = some "1" := by decide +kernel
      constructor
      · rw [hnodes]
        exact ⟨['4'], by decide +kernel, by decide, List.forall_mem_singleton.2 rfl, by decide, by decide⟩
      · rw [hwindow]
        rfl
      · rw [hbind]
        rfl
      · rw [hmetrics]
        exact iff_of_true rfl (by decide +kernel)
      · rfl
  · intro other
    refine hsame [] (.file tomlPath) _ hraw rfl _ fun path hpath => ?_
    cases List.mem_singleton.1 hpath
    rfl
  · obtain ⟨e, -, he⟩ := hfails (.file jsonPath) (by rw [source?, hnamed]; rfl) (by
      rintro ⟨b, ⟨bytes, text, -, -, hb⟩, hsensible⟩
      rw [if_pos namesJson_jsonPath] at hb
      cases hb
      exact absurd hsensible (by decide))
    exact ⟨e, he⟩

end Config

end WindowedMean
