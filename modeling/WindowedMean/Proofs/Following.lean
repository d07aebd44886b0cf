import WindowedMean.Cluster
import WindowedMean.Proofs.Folding

/-! Nodes whose accumulators follow their windows.

    A node that was never handed a batch has nothing stored. From the first batch on, taken or not,
    it has the sum and the number of its residents stored:

        unseen   absent, and nothing in the window
        seen     the sum and the number of the residents

    A batch leads from either line to the second, whatever becomes of it. Switching a member on or
    off leads nowhere. So a cluster of fresh nodes that is only handed batches and switched has on
    every node what its window says (`follows_run`). -/

namespace WindowedMean

/-- The accumulator of a node follows its window; `seen` says whether a batch has come. -/
structure Node.Follows (n : Node) (seen : Bool) : Prop where
  sound : n.registry.Sound
  key_eq : n.tracker.key = meanKey
  fetch_eq : n.fetch meanKey = if seen then some (Snapshot.ofEvents n.window.residents) else none
  residents_eq : seen = false → n.window.residents = []

theorem Node.follows_ofWindow (id : Nat) {capacity : Nat} (h : 0 < capacity) :
    (ofWindow id (.empty capacity h)).Follows false :=
  ⟨Registry.sound_empty, rfl, rfl, fun _ => rfl⟩

theorem Node.follows_of_start {id capacity : Nat} {n : Node} (hn : Node.start id capacity = .ok n) :
    n.Follows false := by
  rw [Node.start, Node.ofCapacity?, Window.ofCapacity?] at hn
  split at hn
  · rename_i n' hn'
    split at hn'
    · rename_i h
      cases hn
      cases hn'
      exact Node.follows_ofWindow id h
    · cases hn'
  · cases hn

/-- Nothing stored counts as zero, and is zero where the window is empty. -/
theorem Node.Follows.getD_fetch {n : Node} {seen : Bool} (hn : n.Follows seen) :
    (n.fetch meanKey).getD 0 = Snapshot.ofEvents n.window.residents := by
  rw [hn.fetch_eq]
  cases seen with
  | true => rfl
  | false =>
    rw [hn.residents_eq rfl]
    rfl

/-- A node whose accumulator follows its window takes a batch or refuses it, as the window says. The
    accumulator follows the window afterwards, whatever becomes of the batch. -/
theorem Node.Follows.process_cases {n : Node} {seen : Bool} (hn : n.Follows seen)
    (events : List Int) :
    (n.window.Admits (Snapshot.ofEvents n.window.residents) events ∧
      (n.process events).1 = .ok ⟨events.length, (n.window.displaced events).length⟩ ∧
      (n.process events).2.window = n.window.extend events ∧ (n.process events).2.Follows true) ∨
    (¬ n.window.Admits (Snapshot.ofEvents n.window.residents) events ∧
      (n.process events).1 = .error (.overflow events.length) ∧
      (n.process events).2.window = n.window ∧ (n.process events).2.Follows true) := by
  have hold : (n.registry.stored n.tracker.key).getD 0 = Snapshot.ofEvents n.window.residents := by
    rw [hn.key_eq]
    exact hn.getD_fetch
  rcases n.tracker.process_cases hn.sound events with
    ⟨ha, reg', hp, hs', hst⟩ | ⟨ha, reg', hp, hs', hst⟩
  · rw [hold] at ha
    have hproc : n.process events =
        (.ok ⟨events.length, (n.window.displaced events).length⟩,
          ⟨n.id, reg', { n.tracker with window := n.window.extend events }⟩) := by
      simp only [Node.process, hp]
      rfl
    rw [hproc]
    refine Or.inl ⟨ha, rfl, rfl, hs', hn.key_eq, ?_, fun h => Bool.noConfusion h⟩
    change reg'.stored meanKey = some (Snapshot.ofEvents (n.window.extend events).residents)
    rw [hst, if_pos hn.key_eq.symm, hold]
    exact congrArg some (add_sub_cancel _ _)
  · rw [hold] at ha
    have hproc : n.process events =
        (.error (.overflow events.length), ⟨n.id, reg', n.tracker⟩) := by
      simp only [Node.process, hp]
    rw [hproc]
    refine Or.inr ⟨ha, rfl, rfl, hs', hn.key_eq, ?_, fun h => Bool.noConfusion h⟩
    change reg'.stored meanKey = some (Snapshot.ofEvents n.window.residents)
    rw [hst, if_pos hn.key_eq.symm, hold]

theorem Node.Follows.process {n : Node} {seen : Bool} (hn : n.Follows seen) (events : List Int) :
    (n.process events).2.Follows true := by
  rcases hn.process_cases events with ⟨-, -, -, h⟩ | ⟨-, -, -, h⟩
  · exact h
  · exact h

namespace Cluster

/-- A batch for the node at a position, or a switch of the first member with a number. -/
inductive Step where
  | process (k : Nat) (events : List Int)
  | switch (id : Nat) (on : Bool)
  deriving DecidableEq, Repr

/-- One step. -/
def step (c : Cluster) : Step → Cluster
  | .process k events => (c.performAt k (.process events)).2
  | .switch id on => (c.setReachable id on).2

/-- A row of steps. -/
def run (c : Cluster) (steps : List Step) : Cluster := steps.foldl step c

/-- The step hands a batch to the node at a position. -/
def Step.touches (k : Nat) : Step → Bool
  | .process j _ => j == k
  | .switch _ _ => false

/-- A batch has been handed to the node at a position. -/
def touched (steps : List Step) (k : Nat) : Bool := steps.any (Step.touches k)

/-- The accumulators of all nodes follow their windows. -/
def Follows (c : Cluster) (seen : Nat → Bool) : Prop :=
  ∀ (k : Nat) (m : Member), c.members[k]? = some m → m.node.Follows (seen k)

theorem node_setReachable {c : Cluster} {id : Nat} {on : Bool} {k : Nat} {m : Member}
    (hm : (c.setReachable id on).2.members[k]? = some m) :
    ∃ m', c.members[k]? = some m' ∧ m.node = m'.node := by
  rw [setReachable] at hm
  cases hp : c.position? id with
  | none =>
    rw [hp] at hm
    exact ⟨m, hm, rfl⟩
  | some j =>
    rw [hp] at hm
    simp only [List.getElem?_modify] at hm
    obtain ⟨m', hm', rfl⟩ := Option.map_eq_some_iff.1 hm
    refine ⟨m', hm', ?_⟩
    split <;> rfl

theorem follows_process {c : Cluster} {seen : Nat → Bool} (hc : c.Follows seen) (j : Nat)
    (events : List Int) :
    (c.performAt j (.process events)).2.Follows fun k => seen k || j == k := by
  intro k m hm
  rw [performAt] at hm
  cases hj : c.members[j]? with
  | none =>
    rw [hj] at hm
    have hne : j ≠ k := by
      rintro rfl
      rw [hj] at hm
      cases hm
    change m.node.Follows (seen k || j == k)
    rw [beq_false_of_ne hne, Bool.or_false]
    exact hc k m hm
  | some mj =>
    rw [hj] at hm
    change (c.members.set j { mj with node := (mj.node.perform (.process events)).2 })[k]? = _ at hm
    by_cases hk : j = k
    · subst hk
      rw [List.getElem?_set_self (List.getElem?_eq_some_iff.1 hj).1] at hm
      obtain rfl := Option.some.inj hm
      change (mj.node.process events).2.Follows (seen j || j == j)
      rw [beq_self_eq_true, Bool.or_true]
      exact (hc j mj hj).process events
    · rw [List.getElem?_set_ne hk] at hm
      change m.node.Follows (seen k || j == k)
      rw [beq_false_of_ne hk, Bool.or_false]
      exact hc k m hm

theorem follows_step {c : Cluster} {seen : Nat → Bool} (hc : c.Follows seen) (s : Step) :
    (c.step s).Follows fun k => seen k || s.touches k := by
  cases s with
  | process j events => exact follows_process hc j events
  | switch id on =>
    intro k m hm
    obtain ⟨m', hm', hnode⟩ := node_setReachable hm
    change m.node.Follows (seen k || false)
    rw [hnode, Bool.or_false]
    exact hc k m' hm'

theorem follows_run {c : Cluster} {seen : Nat → Bool} (hc : c.Follows seen) (steps : List Step) :
    (c.run steps).Follows fun k => seen k || touched steps k := by
  induction steps generalizing c seen with
  | nil =>
    intro k m hm
    change m.node.Follows (seen k || false)
    rw [Bool.or_false]
    exact hc k m hm
  | cons s steps ih =>
    intro k m hm
    change m.node.Follows (seen k || (s.touches k || touched steps k))
    rw [← Bool.or_assoc]
    exact ih (follows_step hc s) k m hm

/-! ### A cluster that has just been started -/

theorem follows_of_mapM {nodes : List (Nat × Nat)} {started : List Node}
    (h : (nodes.mapM fun p => Node.start p.1 p.2) = Except.ok started) :
    ∀ n ∈ started, n.Follows false := by
  induction nodes generalizing started with
  | nil =>
    cases h
    intro n hn
    cases hn
  | cons p nodes ih =>
    rw [List.mapM_cons] at h
    cases hp : Node.start p.1 p.2 with
    | error e =>
      rw [hp] at h
      cases h
    | ok n =>
      rw [hp] at h
      cases hl : (nodes.mapM fun p => Node.start p.1 p.2) with
      | error e =>
        rw [hl] at h
        cases h
      | ok later =>
        rw [hl] at h
        cases h
        rintro n' (_ | ⟨_, hn'⟩)
        · exact Node.follows_of_start hp
        · exact ih hl n' hn'

theorem follows_start {nodes : List (Nat × Nat)} {timeout : Nat} {c : Cluster}
    (h : start nodes timeout = .ok c) : c.Follows fun _ => false := by
  rw [start] at h
  cases hs : (nodes.mapM fun p => Node.start p.1 p.2) with
  | error e =>
    rw [hs] at h
    cases h
  | ok started =>
    rw [hs] at h
    cases h
    intro k m hm
    change (started.map (⟨·, true⟩))[k]? = some m at hm
    rw [List.getElem?_map] at hm
    obtain ⟨n, hn, rfl⟩ := Option.map_eq_some_iff.1 hm
    exact follows_of_mapM hs n (List.mem_of_getElem? hn)

theorem follows_run_of_start {nodes : List (Nat × Nat)} {timeout : Nat} {c : Cluster}
    (h : start nodes timeout = .ok c) (steps : List Step) :
    (c.run steps).Follows (touched steps) := by
  have hc := follows_run (follows_start h) steps
  simp only [Bool.false_or] at hc
  exact hc

end Cluster

end WindowedMean
