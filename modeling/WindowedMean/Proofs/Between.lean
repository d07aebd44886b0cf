import WindowedMean.Proofs.Lanes

/-! Values between two bounds, and sums that have their mean there.

    If every value that comes in lies between `lo` and `hi`, then so does the mean of whatever part of
    them is counted: the sum of `n` such values lies between `lo * n` and `hi * n`, and this is kept
    when sums are added. No division is made, so nothing is rounded, and nothing is said of a mean of
    no values:

        0 ≤ count ≤ room        lo * count ≤ total ≤ hi * count

    A window holds some of what came in, however many batches were refused and whatever has left, and
    the accumulator follows the window. A queue holds what is still to come in. -/

namespace WindowedMean

/-- All values lie between the bounds. -/
def Within (lo hi : Int) (vs : List Int) : Prop := ∀ v ∈ vs, lo ≤ v ∧ v ≤ hi

instance (lo hi : Int) (vs : List Int) : Decidable (Within lo hi vs) :=
  inferInstanceAs (Decidable (∀ v ∈ vs, lo ≤ v ∧ v ≤ hi))

/-- A sum of at most `room` values whose mean, if there is one, lies between the bounds. -/
structure Snapshot.Between (lo hi : Int) (room : Nat) (s : Snapshot) : Prop where
  count_nonneg : 0 ≤ s.count
  count_le : s.count ≤ room
  lower : lo * s.count ≤ s.total
  upper : s.total ≤ hi * s.count

variable {lo hi : Int} {room room' : Nat} {vs ws : List Int}

theorem within_nil : Within lo hi [] := fun _ hv => absurd hv List.not_mem_nil

theorem Within.append (hv : Within lo hi vs) (hw : Within lo hi ws) : Within lo hi (vs ++ ws) := by
  intro v h
  rcases List.mem_append.1 h with h | h
  · exact hv v h
  · exact hw v h

theorem Within.subset (hw : Within lo hi ws) (h : vs ⊆ ws) : Within lo hi vs :=
  fun v hv => hw v (h hv)

namespace Snapshot
variable {s d : Snapshot}

theorem between_zero (lo hi : Int) (room : Nat) : Between lo hi room 0 :=
  ⟨Int.le_refl 0, Int.natCast_nonneg room, Int.le_of_eq (Int.mul_zero lo),
    Int.le_of_eq (Int.mul_zero hi).symm⟩

theorem Between.mono (h : s.Between lo hi room) (hle : room ≤ room') : s.Between lo hi room' :=
  ⟨h.count_nonneg, Int.le_trans h.count_le (Int.ofNat_le.2 hle), h.lower, h.upper⟩

theorem Between.add (hs : s.Between lo hi room) (hd : d.Between lo hi room') :
    (s + d).Between lo hi (room + room') := by
  obtain ⟨hs₀, hs₁, hs₂, hs₃⟩ := hs
  obtain ⟨hd₀, hd₁, hd₂, hd₃⟩ := hd
  constructor
  · rw [count_add]
    omega
  · rw [count_add]
    omega
  · rw [count_add, total_add, Int.mul_add]
    omega
  · rw [count_add, total_add, Int.mul_add]
    omega

theorem between_singleton {v : Int} (h : lo ≤ v ∧ v ≤ hi) : (ofEvents [v]).Between lo hi 1 := by
  have htotal : (ofEvents [v]).total = v := Int.add_zero v
  have hcount : (ofEvents [v]).count = 1 := rfl
  constructor <;> rw [hcount] <;> omega

theorem between_ofEvents (h : Within lo hi vs) : (ofEvents vs).Between lo hi vs.length := by
  induction vs with
  | nil => exact between_zero lo hi 0
  | cons v vs ih =>
    have hsum : ofEvents (v :: vs) = ofEvents vs + ofEvents [v] := by
      rw [← List.singleton_append, ofEvents_append, add_comm]
    rw [hsum]
    exact (ih fun w hw => h w (List.mem_cons_of_mem v hw)).add
      (between_singleton (h v (List.mem_cons_self ..)))

end Snapshot

/-! ### Nodes -/

/-- A node that has been handed nothing but values between the bounds. -/
structure Node.Holds (lo hi : Int) (n : Node) : Prop where
  follows : ∃ seen, n.Follows seen
  within : Within lo hi n.window.residents

namespace Node
variable {n : Node}

theorem Follows.holds (hn : n.Follows false) : n.Holds lo hi := by
  refine ⟨⟨false, hn⟩, ?_⟩
  rw [hn.residents_eq rfl]
  exact within_nil

theorem Holds.mean (hn : n.Holds lo hi) : n.mean.Between lo hi n.window.capacity := by
  obtain ⟨seen, hfollows⟩ := hn.follows
  rw [Node.mean, hfollows.getD_fetch]
  exact (Snapshot.between_ofEvents hn.within).mono n.window.length_le

theorem Holds.process (hn : n.Holds lo hi) (hv : Within lo hi vs) :
    (n.process vs).2.Holds lo hi ∧ (n.process vs).2.window.capacity = n.window.capacity := by
  obtain ⟨⟨seen, hfollows⟩, hwithin⟩ := hn
  rcases hfollows.process_cases vs with ⟨-, -, hw, hf⟩ | ⟨-, -, hw, hf⟩
  · rw [hw]
    refine ⟨⟨⟨true, hf⟩, ?_⟩, Window.capacity_extend ..⟩
    rw [hw, Window.residents_extend]
    exact (hwithin.append hv).subset (List.drop_subset ..)
  · rw [hw]
    refine ⟨⟨⟨true, hf⟩, ?_⟩, rfl⟩
    rw [hw]
    exact hwithin

end Node

/-! ### Queues and lanes -/

namespace Ingestion
variable {i j : Ingestion} {s : Step} {e : Event} {capacity : Nat}

/-- A queue, a line before it and a node behind it that hold nothing but values between the
    bounds. -/
structure Holds (lo hi : Int) (capacity : Nat) (i : Ingestion) : Prop where
  node : i.node.Holds lo hi
  capacity_eq : i.node.window.capacity = capacity
  queue : Within lo hi i.queue
  waiting : Within lo hi i.waiting

theorem Move.holds (m : Move i s e j) (h : i.Holds lo hi capacity)
    (hs : Within lo hi s.offered) : j.Holds lo hi capacity := by
  obtain ⟨hnode, hcapacity, hqueue, hwaiting⟩ := h
  have hleft (k : Nat) : Within lo hi (i.leave k).waiting :=
    hwaiting.subset (List.eraseIdx_sublist ..).subset
  cases m with
  | accept hv hp hplace =>
    refine ⟨hnode, hcapacity, hqueue.append ?_, hwaiting⟩
    rcases hv with rfl | rfl
    · exact hs
    · exact hs
  | join hp hfull => exact ⟨hnode, hcapacity, hqueue, hwaiting.append hs⟩
  | @grant k v hw hp hk =>
    refine ⟨hnode, hcapacity, hqueue.append fun w hmem => ?_, hleft k⟩
    rw [List.mem_singleton.1 hmem]
    exact hwaiting v (List.mem_of_getElem? hw)
  | dismiss hw hp => exact ⟨hnode, hcapacity, hqueue, hleft _⟩
  | leave => exact ⟨hnode, hcapacity, hqueue, hleft _⟩
  | hand hp hq =>
    have hbatch : Within lo hi i.nextBatch := hqueue.subset (List.take_subset ..)
    obtain ⟨hafter, hsame⟩ := hnode.process hbatch
    rw [← i.node_handOver] at hafter hsame
    refine ⟨hafter, hsame.trans hcapacity, ?_, i.waiting_handOver ▸ hwaiting⟩
    rw [queue_handOver]
    exact hqueue.subset (List.drop_subset ..)
  | fail hp he => exact ⟨hnode, hcapacity, within_nil, hwaiting⟩
  | _ => exact ⟨hnode, hcapacity, hqueue, hwaiting⟩

theorem Holds.run (h : i.Holds lo hi capacity) {steps : List Step}
    (hs : Within lo hi (offered steps)) : (i.run steps).2.Holds lo hi capacity := by
  induction steps generalizing i with
  | nil => exact h
  | cons s steps ih =>
    rw [run_cons]
    refine ih ((step_move i s).holds h (hs.subset ?_)) (hs.subset ?_)
    · exact List.subset_append_left ..
    · exact List.subset_append_right ..

end Ingestion

namespace Lane
variable {l : Lane} {capacity : Nat}

/-- A lane in which there is nothing but values between the bounds, now and later on. -/
structure Holds (lo hi : Int) (capacity : Nat) (l : Lane) : Prop where
  ingestion : l.ingestion.Holds lo hi capacity
  draws : ∀ p, l.producer = some p → ∀ v, p.Draws v → lo ≤ v ∧ v ≤ hi

theorem Holds.obey (hl : l.Holds lo hi capacity) {o : Order} (ho : Within lo hi o.values) :
    (l.obey o).Holds lo hi capacity := by
  obtain ⟨⟨steps, hrun, hoffered⟩, hsettings⟩ := l.obey_eq_run o
  refine ⟨?_, fun p' hp' v hv => ?_⟩
  · rw [hrun]
    refine hl.ingestion.run fun v hv => ?_
    rcases hoffered v hv with hv | ⟨p, hp, hdraws⟩
    · exact ho v hv
    · exact hl.draws p hp v hdraws
  · rw [hp', Option.map_some] at hsettings
    obtain ⟨p, hp, hsame⟩ := Option.map_eq_some_iff.1 hsettings.symm
    rw [← Producer.draws_congr hsame] at hv
    exact hl.draws p hp v hv

theorem Holds.stop (hl : l.Holds lo hi capacity) : l.stop.Holds lo hi capacity := by
  refine ⟨?_, fun p' hp' v hv => ?_⟩
  · change l.ingestion.stop.Holds lo hi capacity
    rw [Ingestion.stop_eq_run]
    refine hl.ingestion.run ?_
    rw [Ingestion.stopping, Ingestion.offered, List.flatMap_cons, ← Ingestion.offered,
      Ingestion.offered_turns]
    exact within_nil
  · obtain ⟨p, hp, rfl⟩ := Option.map_eq_some_iff.1 hp'
    exact hl.draws p hp v hv

end Lane

end WindowedMean
