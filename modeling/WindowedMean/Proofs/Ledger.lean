import WindowedMean.Proofs.Folding

/-! The ledger of several trackers over one registry.

    For a key, set what is stored under it against what the windows of its trackers hold. The
    difference is the *drift* of the key. A batch moves both sides alike, so only those who go past
    the trackers change a drift, and each by what the request itself says:

        request            drift of the key aimed at     drift of any other key
        batch              —                             —
        pair added         the pair, if it was taken     —
        new accumulator    its pair, if it was stored    —
        window touched     what left less what entered   —

    Several trackers may share a key, requests come in any order and any number, and a batch may be
    taken, refused or empty. -/

namespace WindowedMean.Bench

/-- Several trackers over a registry that is still empty. -/
def start (trackers : List Tracker) : Bench := ⟨trackers, .empty⟩

/-- A row of requests, each to the tracker at a position. -/
def run (b : Bench) : List (Nat × Tracker.Op) → Bench
  | [] => b
  | (i, op) :: later => (b.perform i op).2.run later

/-- What one tracker holds towards a key. -/
def share (key : String) (s : Tracker) : Snapshot :=
  if s.key = key then Snapshot.ofEvents s.window.residents else 0

/-- The exact sum and number of all events in the windows of the trackers with a key. -/
def held (b : Bench) (key : String) : Snapshot := (b.trackers.map (share key)).sum

/-- What is stored under a key, nothing stored counting as zero, less what its trackers hold. -/
def drift (b : Bench) (key : String) : Snapshot := (b.registry.stored key).getD 0 - b.held key

/-- What the tracker at a position holds towards a key. -/
def shareAt (b : Bench) (i : Nat) (key : String) : Snapshot :=
  ((b.trackers[i]?).map (share key)).getD 0

/-- What a request to the tracker at a position does to the drift of a key: what was added or stored
    if the answer says that it was, the loss of the window if the window was touched, and nothing
    in all other cases. -/
def shift (b : Bench) (i : Nat) (op : Tracker.Op) (key : String) : Snapshot :=
  match op, (b.perform i op).1 with
  | .add target d, some (.added (.ok ())) => if target = key then d else 0
  | .preset target s, some (.stored none) => if target = key then s else 0
  | .window _, some (.window _) => b.shareAt i key - (b.perform i op).2.shareAt i key
  | _, _ => 0

/-- The shifts of a row of requests, added up. -/
def shifts (b : Bench) : List (Nat × Tracker.Op) → String → Snapshot
  | [], _ => 0
  | (i, op) :: later, key => b.shift i op key + (b.perform i op).2.shifts later key

/-- The key that a request to the tracker at a position aims at. -/
def target (b : Bench) (i : Nat) : Tracker.Op → Option String
  | .process _ => (b.trackers[i]?).map (·.key)
  | .preset key _ => some key
  | .add key _ => some key
  | .get _ => none
  | .window _ => none

variable {b : Bench} {i : Nat} {s s' : Tracker}

theorem perform_of_getElem? (hi : b.trackers[i]? = some s) (op : Tracker.Op) :
    b.perform i op = (some (s.perform b.registry op).1,
      ⟨b.trackers.set i (s.perform b.registry op).2.1, (s.perform b.registry op).2.2⟩) := by
  simp only [perform, hi]

theorem perform_of_getElem?_none (hi : b.trackers[i]? = none) (op : Tracker.Op) :
    b.perform i op = (none, b) := by
  simp only [perform, hi]

/-! ### What the trackers hold -/

/-- Changing the tracker at a position changes what is held by the change of its share. -/
theorem held_set (hi : b.trackers[i]? = some s) (reg : Registry) (key : String) :
    (Bench.mk (b.trackers.set i s') reg).held key = b.held key + (share key s' - share key s) := by
  obtain ⟨hlt, hget⟩ := List.getElem?_eq_some_iff.1 hi
  have hlt' : i < (b.trackers.map (share key)).length := by
    rw [List.length_map]
    exact hlt
  rw [held, held, List.map_set, List.sum_set', dif_pos hlt', List.getElem_map, hget]
  abel

theorem shareAt_of_getElem? (hi : b.trackers[i]? = some s) (key : String) :
    b.shareAt i key = share key s := by
  rw [shareAt, hi, Option.map_some, Option.getD_some]

theorem shareAt_set (hi : b.trackers[i]? = some s) (reg : Registry) (key : String) :
    (Bench.mk (b.trackers.set i s') reg).shareAt i key = share key s' := by
  obtain ⟨hlt, -⟩ := List.getElem?_eq_some_iff.1 hi
  exact shareAt_of_getElem? (List.getElem?_set_self hlt) key

/-- A tracker whose window has taken in a batch holds more by the change of the batch. -/
theorem share_extend (s : Tracker) (events : List Int) (key : String) :
    share key { s with window := s.window.extend events } - share key s =
      if s.key = key then s.window.change events else 0 := by
  rw [share, share]
  split
  · rfl
  · exact sub_self 0

/-- The drift after a request that wrote under at most one key and changed at most one tracker. -/
theorem drift_set (hi : b.trackers[i]? = some s) {reg : Registry} {target : String}
    {new : Snapshot} (hst : ∀ k, reg.stored k =
      if k = target then some new else b.registry.stored k) (key : String) :
    (Bench.mk (b.trackers.set i s') reg).drift key = b.drift key +
      (if target = key then new - (b.registry.stored target).getD 0 else 0) -
      (share key s' - share key s) := by
  rw [drift, drift, held_set hi, hst]
  by_cases hk : target = key
  · rw [if_pos hk.symm, if_pos hk, Option.getD_some, hk]
    abel
  · rw [if_neg (Ne.symm hk), if_neg hk]
    abel

/-- The drift after a request that wrote under no key. -/
theorem drift_set_window (hi : b.trackers[i]? = some s) (key : String) :
    (Bench.mk (b.trackers.set i s') b.registry).drift key =
      b.drift key - (share key s' - share key s) := by
  rw [drift, drift, held_set hi]
  abel

/-! ### One request -/

theorem drift_process (hs : b.registry.Sound) (hi : b.trackers[i]? = some s) (events : List Int)
    (key : String) : (b.perform i (.process events)).2.drift key = b.drift key := by
  rw [perform_of_getElem? hi]
  simp only [Tracker.perform]
  rcases s.process_cases hs events with ⟨-, reg', hp, -, hst⟩ | ⟨-, reg', hp, -, hst⟩
  · -- taken: both sides grow by the change of the batch
    rw [hp, drift_set hi hst, share_extend, add_sub_cancel_left, add_sub_cancel_right]
  · -- refused: the key reads zero where it was absent, and the window is as it was
    rw [hp, drift_set hi hst, sub_self, sub_self, ite_self, add_zero, sub_zero]

theorem drift_add (hs : b.registry.Sound) (hi : b.trackers[i]? = some s) (target : String)
    (d : Snapshot) (key : String) :
    (b.perform i (.add target d)).2.drift key = b.drift key + b.shift i (.add target d) key := by
  rcases Registry.addUnder_spec hs target d with ⟨-, hr, hst⟩ | ⟨-, hr, hst⟩
  · simp only [shift, perform_of_getElem? hi, Tracker.perform, hr]
    rw [drift_set hi hst, add_sub_cancel_left, sub_self, sub_zero]
  · simp only [shift, perform_of_getElem? hi, Tracker.perform, hr]
    rw [drift_set hi hst, sub_self, sub_self, ite_self, sub_zero]

theorem drift_preset (hs : b.registry.Sound) (hi : b.trackers[i]? = some s) (target : String)
    (d : Snapshot) (key : String) :
    (b.perform i (.preset target d)).2.drift key =
      b.drift key + b.shift i (.preset target d) key := by
  obtain ⟨hr, hst⟩ := Registry.preset_spec hs target d
  cases hold : b.registry.stored target with
  | none =>
    simp only [shift, perform_of_getElem? hi, Tracker.perform, hr, hold]
    rw [drift_set hi hst, hold, Option.getD_none, Option.getD_none, sub_self, sub_zero, sub_zero]
  | some old =>
    simp only [shift, perform_of_getElem? hi, Tracker.perform, hr, hold]
    rw [drift_set hi hst, hold, Option.getD_some, Option.getD_some, sub_self, sub_self, ite_self,
      sub_zero]

theorem drift_get (hi : b.trackers[i]? = some s) (target key : String) :
    (b.perform i (.get target)).2.drift key = b.drift key := by
  rw [perform_of_getElem? hi]
  simp only [Tracker.perform]
  rw [drift_set_window hi, sub_self, sub_zero]

theorem drift_window (hi : b.trackers[i]? = some s) (op : Window.Op) (key : String) :
    (b.perform i (.window op)).2.drift key = b.drift key + b.shift i (.window op) key := by
  simp only [shift, perform_of_getElem? hi, Tracker.perform]
  rw [drift_set_window hi, shareAt_of_getElem? hi, shareAt_set hi]
  abel

/-- Every request changes the drift of every key by exactly its shift. -/
theorem drift_perform (hs : b.registry.Sound) (i : Nat) (op : Tracker.Op) (key : String) :
    (b.perform i op).2.drift key = b.drift key + b.shift i op key := by
  cases hi : b.trackers[i]? with
  | none =>
    have hz : b.shift i op key = 0 := by
      cases op <;> simp only [shift, perform_of_getElem?_none hi]
    rw [perform_of_getElem?_none hi, hz, add_zero]
  | some s =>
    cases op with
    | process events => exact (drift_process hs hi events key).trans (add_zero _).symm
    | preset target d => exact drift_preset hs hi target d key
    | add target d => exact drift_add hs hi target d key
    | get target => exact (drift_get hi target key).trans (add_zero _).symm
    | window op => exact drift_window hi op key

/-- No request changes what is stored under a key that it does not aim at. -/
theorem stored_perform (hs : b.registry.Sound) (i : Nat) (op : Tracker.Op) {key : String}
    (hk : b.target i op ≠ some key) :
    (b.perform i op).2.registry.stored key = b.registry.stored key := by
  cases hi : b.trackers[i]? with
  | none => rw [perform_of_getElem?_none hi]
  | some s =>
    rw [perform_of_getElem? hi]
    cases op with
    | process events =>
      have hne : key ≠ s.key := fun e => hk (by rw [target, hi, e]; rfl)
      rcases s.process_cases hs events with ⟨-, reg', hp, -, hst⟩ | ⟨-, reg', hp, -, hst⟩ <;>
        simp only [Tracker.perform, hp, hst, if_neg hne]
    | preset target d =>
      have hne : key ≠ target := fun e => hk (by rw [e]; rfl)
      simp only [Tracker.perform, (Registry.preset_spec hs target d).2, if_neg hne]
    | add target d =>
      have hne : key ≠ target := fun e => hk (by rw [e]; rfl)
      rcases Registry.addUnder_spec hs target d with ⟨-, -, hst⟩ | ⟨-, -, hst⟩ <;>
        simp only [Tracker.perform, hst, if_neg hne]
    | get target => rfl
    | window op => rfl

theorem sound_perform (hs : b.registry.Sound) (i : Nat) (op : Tracker.Op) :
    (b.perform i op).2.registry.Sound := by
  cases hi : b.trackers[i]? with
  | none =>
    rw [perform_of_getElem?_none hi]
    exact hs
  | some s =>
    rw [perform_of_getElem? hi]
    cases op with
    | process events => exact s.sound_process hs events
    | preset target d => exact Registry.sound_preset hs target d
    | add target d => exact Registry.sound_addUnder hs target d
    | get target => exact hs
    | window op => exact hs

/-! ### Runs -/

theorem sound_run (hs : b.registry.Sound) (steps : List (Nat × Tracker.Op)) :
    (b.run steps).registry.Sound := by
  induction steps generalizing b with
  | nil => exact hs
  | cons step later ih => exact ih (sound_perform hs step.1 step.2)

/-- A run changes the drift of every key by exactly its shifts. -/
theorem drift_run (hs : b.registry.Sound) (steps : List (Nat × Tracker.Op)) (key : String) :
    (b.run steps).drift key = b.drift key + b.shifts steps key := by
  induction steps generalizing b with
  | nil => exact (add_zero _).symm
  | cons step later ih =>
    rw [run, shifts, ih (sound_perform hs step.1 step.2), drift_perform hs, add_assoc]

/-- Batches shift nothing. -/
theorem shifts_of_batches (steps : List (Nat × Tracker.Op))
    (h : ∀ x ∈ steps, ∃ events, x.2 = .process events) (b : Bench) (key : String) :
    b.shifts steps key = 0 := by
  induction steps generalizing b with
  | nil => rfl
  | cons step later ih =>
    obtain ⟨events, he⟩ := h step (List.mem_cons_self ..)
    rw [shifts, ih (fun x hx => h x (List.mem_cons_of_mem _ hx)), add_zero, he]
    rfl

theorem held_of_empty {trackers : List Tracker} (h : ∀ s ∈ trackers, s.window.residents = [])
    (reg : Registry) (key : String) : (Bench.mk trackers reg).held key = 0 := by
  refine List.sum_eq_zero ?_
  intro x hx
  obtain ⟨s, hs, rfl⟩ := List.mem_map.1 hx
  rw [share, h s hs, Snapshot.ofEvents_nil, ite_self]

/-- The ledger. After any run from an empty registry, one more request changes the drift of every
    key by exactly its shift and leaves alone what is stored under any key it does not aim at, and
    the whole run has changed the drift by exactly its shifts. In particular, where trackers started
    with empty windows and got nothing but batches, what is stored under a key is what they hold. -/
theorem drift_ledger (trackers : List Tracker) (steps : List (Nat × Tracker.Op)) (key : String) :
    (∀ i op, (((start trackers).run steps).perform i op).2.drift key =
        ((start trackers).run steps).drift key + ((start trackers).run steps).shift i op key ∧
      (((start trackers).run steps).target i op ≠ some key →
        (((start trackers).run steps).perform i op).2.registry.stored key =
          ((start trackers).run steps).registry.stored key)) ∧
    ((start trackers).run steps).drift key =
      (start trackers).drift key + (start trackers).shifts steps key ∧
    ((∀ s ∈ trackers, s.window.residents = []) →
      (∀ x ∈ steps, ∃ events, x.2 = .process events) →
      (((start trackers).run steps).registry.stored key).getD 0 =
        ((start trackers).run steps).held key) := by
  have hs : (start trackers).registry.Sound := Registry.sound_empty
  have hs' := sound_run hs steps
  refine ⟨fun i op => ⟨drift_perform hs' i op key, stored_perform hs' i op⟩, drift_run hs steps key, ?_⟩
  intro hempty hbatches
  have hstart : (start trackers).drift key = 0 := by
    rw [drift, start, held_of_empty hempty]
    rfl
  have hend := drift_run hs steps key
  rw [hstart, shifts_of_batches steps hbatches, add_zero] at hend
  exact sub_eq_zero.1 hend

/-- Two trackers share a key. The first batch displaces two of its own members, the third one is
    refused, and the sum of both windows is what is stored. -/
theorem drift_ledger_of_shared_key :
    let b := (start [⟨.empty 1 Nat.one_pos, meanKey⟩, ⟨.empty 2 Nat.two_pos, meanKey⟩]).run
      [(0, .process [greatest, greatest, 3]), (1, .process [5]), (1, .process [greatest])]
    b.registry.stored meanKey = some ⟨8, 2⟩ ∧
      (b.registry.stored meanKey).getD 0 = b.held meanKey ∧
      (b.perform 1 (.process [7])).2.registry.stored "other" = b.registry.stored "other" := by
  refine ⟨by decide +kernel, (drift_ledger _ _ meanKey).2.2 ?_ ?_,
    ((drift_ledger _ _ "other").1 1 (.process [7])).2 (by decide +kernel)⟩
  · exact List.forall_mem_cons.2 ⟨rfl, List.forall_mem_singleton.2 rfl⟩
  · exact List.forall_mem_cons.2 ⟨⟨_, rfl⟩,
      List.forall_mem_cons.2 ⟨⟨_, rfl⟩, List.forall_mem_singleton.2 ⟨_, rfl⟩⟩⟩

end WindowedMean.Bench
