import WindowedMean.Proofs.Between
import WindowedMean.Proofs.Cycles
import WindowedMean.Proofs.Readings

/-! Averages of values between two bounds lie between these bounds.

    From the values to what an operator reads there are three stations, and at each something may be
    missing, but nothing is made up:

        node        batches may be refused, and old values have left
        query       members may be off or late, and batches may come in between
        readout     replies may be left out of the fold

    So every mean on the way is one of some of the values, and each member counts with no more of them
    than its window holds. A running program whose producers draw below a bound is one such cluster,
    whatever it is asked to do in the meantime. -/

namespace WindowedMean

variable {lo hi : Int} {room : Nat → Nat}

/-- An average of at least one and at most `most` values, between the bounds. -/
structure GlobalAverage.Bounded (lo hi : Int) (most : Nat) (g : GlobalAverage) : Prop where
  count_pos : 1 ≤ g.count
  count_le : g.count ≤ most
  lower : lo * g.count ≤ g.total
  upper : g.total ≤ hi * g.count

theorem Snapshot.between_sum {readings : List (Nat × Snapshot)}
    (h : ∀ p ∈ readings, Between lo hi (room p.1) p.2) :
    Between lo hi (readings.map fun p => room p.1).sum (readings.map (·.2)).sum := by
  induction readings with
  | nil => exact between_zero lo hi 0
  | cons p readings ih =>
    rw [List.map_cons, List.map_cons, List.sum_cons, List.sum_cons]
    exact (h p (List.mem_cons_self ..)).add (ih fun q hq => h q (List.mem_cons_of_mem p hq))

theorem GlobalAverage.MadeOf.bounded {g : GlobalAverage} {readings : List (Nat × Snapshot)}
    (hg : g.MadeOf readings) (h : ∀ p ∈ readings, Snapshot.Between lo hi (room p.1) p.2) :
    g.Bounded lo hi (readings.map fun p => room p.1).sum := by
  have hsum := Snapshot.between_sum h
  rw [← hg.sum_eq] at hsum
  obtain ⟨hnonneg, hle, hlower, hupper⟩ := hsum
  have hne := hg.count_ne_zero
  refine ⟨?_, hle, hlower, hupper⟩
  change 0 ≤ g.count at hnonneg
  omega

/-! ### Readouts -/

theorem Readout.eq_ok_of_ofResult {g : GlobalAverage} {result : Except ReduceError GlobalAverage}
    {ideal ideal' : Float} {time time' : Instant}
    (h : Readout.ofResult result ideal time = .ok g ideal' time') : result = .ok g := by
  rcases result with ⟨nodes, unreachable⟩ | g'
  · cases h
  · cases h
    rfl

/-- A readout with an average comes from one of the rows of replies. -/
theorem ReduceLoop.reduce_of_mem_run {rows : List (List Reply)} {l : ReduceLoop} {clock : Clock}
    {t : Nat} {g : GlobalAverage} {ideal : Float} {time : Instant}
    (h : (t, .ok g ideal time) ∈ (l.run clock rows).1) :
    ∃ replies ∈ rows, ∃ counters : ReduceCounters, (counters.reduce replies).1 = .ok g := by
  induction rows generalizing l with
  | nil => cases h
  | cons replies later ih =>
    rw [ReduceLoop.run] at h
    split at h
    · rcases List.mem_cons.1 h with heq | hlater
      · exact ⟨replies, List.mem_cons_self .., l.counters,
          Readout.eq_ok_of_ofResult (Prod.mk.inj heq).2.symm⟩
      · obtain ⟨row, hrow, hg⟩ := ih hlater
        exact ⟨row, List.mem_cons_of_mem _ hrow, hg⟩
    · cases h

/-! ### Clusters -/

namespace Cluster
open FanOut (Turn Read during steps)

/-- The batch that a step hands over, if any, has all values between the bounds. -/
def Step.Within (lo hi : Int) : Step → Prop
  | .process _ events => WindowedMean.Within lo hi events
  | .switch _ _ => True

instance (lo hi : Int) : DecidablePred (Step.Within lo hi)
  | .process _ events => inferInstanceAs (Decidable (WindowedMean.Within lo hi events))
  | .switch _ _ => inferInstanceAs (Decidable True)

/-- Every node has been handed nothing but values between the bounds; `room` tells their capacities. -/
def Holds (lo hi : Int) (room : Nat → Nat) (c : Cluster) : Prop :=
  ∀ (k : Nat) (m : Member), c.members[k]? = some m →
    m.node.Holds lo hi ∧ m.node.window.capacity = room k

variable {c : Cluster} {k : Nat} {m : Member} {turns : List Turn} {g : GlobalAverage}

/-- A step leaves the node at a position alone, or hands it a batch. -/
theorem node_of_step {s : Step} (hm : (c.step s).members[k]? = some m) :
    ∃ m', c.members[k]? = some m' ∧
      (m.node = m'.node ∨ ∃ events, s = .process k events ∧ m.node = (m'.node.process events).2) := by
  cases s with
  | switch id on =>
    obtain ⟨m', hm', hnode⟩ := node_setReachable hm
    exact ⟨m', hm', Or.inl hnode⟩
  | process j events =>
    rw [step, performAt] at hm
    cases hj : c.members[j]? with
    | none =>
      rw [hj] at hm
      exact ⟨m, hm, Or.inl rfl⟩
    | some m' =>
      rw [hj] at hm
      change (c.members.set j { m' with node := (m'.node.process events).2 })[k]? = some m at hm
      by_cases hk : j = k
      · subst hk
        rw [List.getElem?_set_self (List.getElem?_eq_some_iff.1 hj).1] at hm
        cases hm
        exact ⟨m', hj, Or.inr ⟨events, rfl, rfl⟩⟩
      · rw [List.getElem?_set_ne hk] at hm
        exact ⟨m, hm, Or.inl rfl⟩

theorem Holds.step (hc : c.Holds lo hi room) {s : Step} (hs : s.Within lo hi) :
    (c.step s).Holds lo hi room := by
  intro k m hm
  obtain ⟨m', hm', hnode | ⟨events, rfl, hnode⟩⟩ := node_of_step hm
  · rw [hnode]
    exact hc k m' hm'
  · obtain ⟨hholds, hcapacity⟩ := hc k m' hm'
    obtain ⟨hafter, hsame⟩ := hholds.process hs
    rw [hnode]
    exact ⟨hafter, hsame.trans hcapacity⟩

theorem Holds.run (hc : c.Holds lo hi room) {steps : List Step}
    (hs : ∀ s ∈ steps, s.Within lo hi) : (c.run steps).Holds lo hi room :=
  List.foldlRecOn steps Cluster.step hc fun _ h s hmem => h.step (hs s hmem)

/-- The average is made of what different members answered in a query, and is bounded as all of their
    values are. -/
def Yields (lo hi : Int) (room : Nat → Nat) (c : Cluster) (turns : List Turn) (g : GlobalAverage) :
    Prop :=
  ∃ readings, g.MadeOf readings ∧ (∀ p ∈ readings, Read c turns p.1 p.2) ∧
    g.Bounded lo hi (readings.map fun p => room p.1).sum

theorem Holds.yields (hc : c.Holds lo hi room) (ht : ∀ s ∈ steps turns, s.Within lo hi)
    {counters : ReduceCounters}
    (h : (counters.reduce (during c meanKey turns).2.replies).1 = .ok g) :
    Yields lo hi room c turns g := by
  obtain ⟨readings, hmade, hread⟩ := FanOut.madeOf_of_reduce h
  refine ⟨readings, hmade, hread, hmade.bounded fun p hp => ?_⟩
  -- What was read is the mean of a node as it was after some of the steps.
  obtain ⟨earlier, later, m, rfl, hm, hs⟩ := hread p hp
  have hearlier : ∀ s ∈ steps earlier, s.Within lo hi := by
    intro s hs
    refine ht s ?_
    rw [steps, List.filterMap_append]
    exact List.mem_append_left _ hs
  obtain ⟨hholds, hcapacity⟩ := hc.run hearlier p.1 m hm
  have hmean := hholds.mean
  rw [Node.mean, hs, hcapacity] at hmean
  exact hmean

/-! ### A cluster from its start on -/

/-- Every mean, every result and every readout that may come of a cluster when its nodes are handed
    nothing but values between the bounds. -/
structure Sound (lo hi : Int) (room : Nat → Nat) (c : Cluster) : Prop where
  means : ∀ before, (∀ s ∈ before, s.Within lo hi) → ∀ (k : Nat) (m : Member),
    (c.run before).members[k]? = some m → m.node.mean.Between lo hi (room k)
  results : ∀ before turns, (∀ s ∈ before, s.Within lo hi) → (∀ s ∈ steps turns, s.Within lo hi) →
    ∀ (counters : ReduceCounters) g,
      (counters.reduce (during (c.run before) meanKey turns).2.replies).1 = .ok g →
      Yields lo hi room (c.run before) turns g
  /-- One query for each cycle of a loop. -/
  readouts : ∀ queries : List (List Step × List Turn),
    (∀ q ∈ queries, (∀ s ∈ q.1, s.Within lo hi) ∧ ∀ s ∈ steps q.2, s.Within lo hi) →
    ∀ (l : ReduceLoop) clock t g ideal time,
      (t, .ok g ideal time) ∈
        (l.run clock (queries.map fun q => (during (c.run q.1) meanKey q.2).2.replies)).1 →
      ∃ q ∈ queries, Yields lo hi room (c.run q.1) q.2 g

theorem Holds.sound (hc : c.Holds lo hi room) : c.Sound lo hi room where
  means before hb k m hm := by
    obtain ⟨hholds, hcapacity⟩ := hc.run hb k m hm
    rw [← hcapacity]
    exact hholds.mean
  results before turns hb ht counters g h := (hc.run hb).yields ht h
  readouts queries hq l clock t g ideal time h := by
    obtain ⟨replies, hreplies, counters, hg⟩ := ReduceLoop.reduce_of_mem_run h
    obtain ⟨q, hmem, rfl⟩ := List.mem_map.1 hreplies
    obtain ⟨hb, ht⟩ := hq q hmem
    exact ⟨q, hmem, (hc.run hb).yields ht hg⟩

/-- The capacity of the node at a position, as it was asked for. -/
def capacityOf (nodes : List (Nat × Nat)) (k : Nat) : Nat := (nodes[k]?.map (·.2)).getD 0

theorem capacity_of_start {id capacity : Nat} {n : Node} (hn : Node.start id capacity = .ok n) :
    n.window.capacity = capacity := by
  rw [Node.start, Node.ofCapacity?] at hn
  by_cases hc : 0 < capacity
  · rw [Window.ofCapacity?, dif_pos hc] at hn
    cases hn
    rfl
  · rw [Window.ofCapacity?, dif_neg hc] at hn
    cases hn

theorem holds_of_start {nodes : List (Nat × Nat)} {timeout : Nat}
    (h : start nodes timeout = .ok c) : c.Holds lo hi (capacityOf nodes) := by
  rw [start] at h
  cases hs : (nodes.mapM fun p => Node.start p.1 p.2) with
  | error e =>
    rw [hs] at h
    cases h
  | ok started =>
    rw [hs] at h
    cases h
    intro k m hm
    change (started.map (⟨·, true⟩))[k]? = some m at hm
    rw [List.getElem?_map] at hm
    obtain ⟨n, hn, rfl⟩ := Option.map_eq_some_iff.1 hm
    obtain ⟨p, hp, hstart⟩ := Service.getElem?_of_mapM hs hn
    refine ⟨(Node.follows_of_start hstart).holds, (capacity_of_start hstart).trans ?_⟩
    rw [capacityOf, hp]
    rfl

end Cluster

/-! ### Programs -/

namespace Service
variable {r : Service} {capacity : Nat}

/-- The values that a step brings from outside. -/
def Step.brings : Step → List Int
  | .request q => (q.posted?.map Submission.values).getD []
  | .submit _ vs => vs
  | .attempt _ v => [v]
  | _ => []

/-- Every lane has nothing but values between the bounds, and so has what was read out last. -/
structure Holds (lo hi : Int) (capacity : Nat) (r : Service) : Prop where
  lanes : ∀ (k : Nat) (l : Lane), r.lanes[k]? = some l → l.Holds lo hi capacity
  latest : ∀ g ideal time, r.loop.latest = some (.ok g ideal time) →
    g.Bounded lo hi (g.contributing * capacity)

/-- Every mean, every result and the latest readout of a program. -/
structure Sound (lo hi : Int) (capacity : Nat) (r : Service) : Prop where
  means : ∀ (k : Nat) (l : Lane), r.lanes[k]? = some l → l.node.mean.Between lo hi capacity
  results : ∀ endings (counters : ReduceCounters) g,
    (counters.reduce (r.cluster.collect meanKey endings)).1 = .ok g →
    g.Bounded lo hi (g.contributing * capacity)
  latest : ∀ g ideal time, r.loop.latest = some (.ok g ideal time) →
    g.Bounded lo hi (g.contributing * capacity)

theorem values_order (r : Service) (k : Nat) (s : Step) : (r.order k s).values ⊆ s.brings := by
  have haim (id : Nat) (o : Lane.Order) : (r.aim id k o).values ⊆ o.values := by
    rw [aim]
    split
    · exact List.Subset.refl _
    · exact List.nil_subset _
  cases s with
  | request q =>
    simp only [order, Step.brings]
    cases q.posted? with
    | none => exact List.nil_subset _
    | some b => exact haim b.node (.submit b.values)
  | submit id vs => exact haim id (.submit vs)
  | attempt id v => exact haim id (.attempt v)
  | retry id j => exact haim id (.retry j)
  | leave id j => exact haim id (.leave j)
  | turn id => exact haim id .turn
  | switch id on => exact haim id (.switch on)
  | cycle =>
    simp only [order]
    split
    · exact List.nil_subset _
    · split
      · exact List.nil_subset _
      · split <;> exact List.nil_subset _
  | _ => exact List.nil_subset _

theorem bounded_of_collect (hl : ∀ (k : Nat) (l : Lane), r.lanes[k]? = some l →
      l.Holds lo hi capacity) {endings : List Ending} {counters : ReduceCounters}
    {g : GlobalAverage} (h : (counters.reduce (r.cluster.collect meanKey endings)).1 = .ok g) :
    g.Bounded lo hi (g.contributing * capacity) := by
  have hcluster : r.cluster.Holds lo hi fun _ => capacity := by
    intro k m hm
    change (r.lanes.map fun l => (⟨l.node, l.reachable⟩ : Member))[k]? = some m at hm
    rw [List.getElem?_map] at hm
    obtain ⟨l, hlk, rfl⟩ := Option.map_eq_some_iff.1 hm
    exact ⟨(hl k l hlk).ingestion.node, (hl k l hlk).ingestion.capacity_eq⟩
  rw [← FanOut.replies_during_finish] at h
  have hsteps : FanOut.steps (endings.map .finish) = [] := by
    rw [FanOut.steps, List.filterMap_map]
    exact List.filterMap_eq_nil_iff.2 fun _ _ => rfl
  obtain ⟨readings, hmade, -, hbounded⟩ := hcluster.yields (by rw [hsteps]; simp) h
  rw [List.map_const', List.sum_replicate_nat, ← hmade.contributing_eq] at hbounded
  exact hbounded

theorem Holds.sound (hr : r.Holds lo hi capacity) : r.Sound lo hi capacity where
  means k l hl := by
    have hmean := (hr.lanes k l hl).ingestion.node.mean
    rw [(hr.lanes k l hl).ingestion.capacity_eq] at hmean
    exact hmean
  results endings counters g h := bounded_of_collect hr.lanes h
  latest := hr.latest

theorem Holds.step (hr : r.Holds lo hi capacity) {s : Step} (hs : Within lo hi s.brings) :
    (r.step s).Holds lo hi capacity := by
  have hlanes : ∀ (k : Nat) (l : Lane), (r.step s).lanes[k]? = some l → l.Holds lo hi capacity :=
    forall_lanes_step fun k l hl => (hr.lanes k l hl).obey (hs.subset (r.values_order k s))
  refine ⟨hlanes, fun g ideal time hg => ?_⟩
  rcases r.loop_step s with ⟨-, hsame⟩ | ⟨endings, now, -, hcycle⟩
  · rw [hsame] at hg
    exact hr.latest g ideal time hg
  · rw [hcycle] at hg
    have hresult :
        (r.loop.counters.reduce ((r.step s).cluster.collect meanKey endings)).1 = .ok g :=
      Readout.eq_ok_of_ofResult (Option.some.inj hg)
    exact bounded_of_collect hlanes hresult

theorem Holds.run (hr : r.Holds lo hi capacity) {steps : List Step}
    (hs : ∀ s ∈ steps, Within lo hi s.brings) : (r.run steps).Holds lo hi capacity :=
  List.foldlRecOn steps Service.step hr fun _ h s hmem => h.step (hs s hmem)

theorem Holds.shutdown (hr : r.Holds lo hi capacity) : r.shutdown.Holds lo hi capacity :=
  ⟨forall_lanes_shutdown fun k l hl => (hr.lanes k l hl).stop, hr.latest⟩

/-- A program whose producers draw below a bound holds nothing but what they draw. -/
theorem holds_of_start {c : Config} (hc : 1 ≤ c.valueRange) {clock : Clock}
    {streams : Option (Nat → Nat → UInt64)} (h : start c clock streams = .ok r) :
    r.Holds 0 (c.valueRange - 1) c.windowCapacity := by
  obtain ⟨hlanes, hloop⟩ := of_start h
  refine ⟨fun k l hl => ?_, fun g ideal time hg => ?_⟩
  · obtain ⟨hcapacity, rfl⟩ := hlanes k l hl
    refine ⟨⟨(Node.follows_ofWindow k hcapacity).holds, rfl, within_nil, within_nil⟩,
      fun p hp v hv => ?_⟩
    obtain ⟨outside, -, rfl⟩ := Option.map_eq_some_iff.1 hp
    have hspan : (Producer.start (c.producer k) (outside k)).span = (max 1 c.valueRange).toNat := rfl
    obtain ⟨hnonneg, hlt⟩ := hv
    rw [hspan] at hlt
    omega
  · rw [hloop] at hg
    cases hg

end Service

/-- Averages are those of values that came in. In a cluster whose nodes are handed nothing but values
    between two bounds, however often it refuses, is switched, is late or leaves a reply out, every
    accumulator, every result and every readout keeps to the bounds; and so does a program whose
    producers draw below a bound, and into which nothing else comes from outside. -/
theorem averages_between :
    (∀ lo hi nodes timeout c, Cluster.start nodes timeout = .ok c →
      c.Sound lo hi (Cluster.capacityOf nodes)) ∧
    (∀ (c : Config) clock streams r₀, 1 ≤ c.valueRange → Service.start c clock streams = .ok r₀ →
      ∀ steps, (∀ s ∈ steps, Within 0 (c.valueRange - 1) s.brings) →
        (r₀.run steps).Sound 0 (c.valueRange - 1) c.windowCapacity ∧
          (r₀.run steps).shutdown.Sound 0 (c.valueRange - 1) c.windowCapacity) := by
  refine ⟨fun lo hi nodes timeout c h => (Cluster.holds_of_start h).sound, ?_⟩
  intro c clock streams r₀ hc h steps hs
  have hholds := (Service.holds_of_start hc h).run hs
  exact ⟨hholds.sound, hholds.shutdown.sound⟩

/-- Values at the end of the range. One batch is refused before the query and one during it, and the
    second reply does not fit into the sum. The program has two nodes with windows of three. -/
theorem averages_between_of_greatest :
    (∃ c, Cluster.start [(7, 2), (3, 1)] 50 = .ok c ∧ ∃ g,
      (ReduceCounters.zero.reduce (FanOut.during (c.run [.process 0 [greatest, greatest - 1],
          .process 0 [greatest - 1], .process 1 [greatest]]) meanKey
        [.finish (.answer 1), .step (.process 0 [greatest]), .finish (.answer 0)]).2.replies).1 =
        .ok g ∧ g.total = greatest ∧ g.contributing = 1 ∧
      Cluster.Yields (greatest - 1) greatest (Cluster.capacityOf [(7, 2), (3, 1)])
        (c.run [.process 0 [greatest, greatest - 1], .process 0 [greatest - 1],
          .process 1 [greatest]])
        [.finish (.answer 1), .step (.process 0 [greatest]), .finish (.answer 0)] g) ∧
    (∃ r, Service.start { Config.standard with
        windowCapacity := 3, valueRange := 10, nodes := 2, producerPauseMs := 1000 }
        (fun _ => ⟨0, 0⟩) (some fun _ _ => 0x8000000000000000) = .ok r ∧
      (∃ l, (r.run [.cycle, .submit 1 [9]]).lanes[0]? = some l ∧ l.node.mean = ⟨15, 3⟩) ∧
      (r.run [.cycle, .submit 1 [9]]).shutdown.Sound 0 9 3) := by
  obtain ⟨hclusters, hprograms⟩ := averages_between
  refine ⟨⟨_, rfl, _, rfl, rfl, rfl, ?_⟩, ⟨_, rfl, ⟨_, rfl, ?_⟩, ?_⟩⟩
  · refine (hclusters (greatest - 1) greatest [(7, 2), (3, 1)] 50 _ rfl).results _ _ ?_ ?_
      ReduceCounters.zero _ rfl
    · decide
    · decide
  · decide +kernel
  · exact (hprograms { Config.standard with
      windowCapacity := 3, valueRange := 10, nodes := 2, producerPauseMs := 1000 } _ _ _
      (by decide) rfl _ (by decide)).2

end WindowedMean
