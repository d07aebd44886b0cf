import WindowedMean.Proofs.Following
import WindowedMean.Proofs.Merging
import WindowedMean.Proofs.Replies

/-! What the global average is an average of.

    A cluster of fresh nodes is handed batches and has members switched off and on; then it is asked.
    What comes out depends on the windows of the members that answered, and on nothing else:

        total, count    the sum and the number of the residents of those who answered
        contributing    those who answered and were ever handed a batch
        unreachable     those who are switched off or came too late

    A member whose first batch was refused has an empty accumulator: it contributes, and adds
    nothing. -/

namespace WindowedMean

/-- The position of a member that answered. -/
def Ending.heard? : Ending → Option Nat
  | .answer k => some k
  | .expire _ => none

/-- The positions of the members that answered, in the order of their answers. -/
def heard (endings : List Ending) : List Nat := endings.filterMap Ending.heard?

theorem Snapshot.ofEvents_perm {vs ws : List Int} (h : vs.Perm ws) : ofEvents vs = ofEvents ws :=
  Snapshot.ext h.sum_eq (congrArg Int.ofNat h.length_eq)

namespace Cluster
variable {c : Cluster} {seen : Nat → Bool} {endings : List Ending}

/-- The events in the window of the member at a position. -/
def residents (c : Cluster) (k : Nat) : List Int :=
  (c.members[k]?.map (·.node.window.residents)).getD []

/-- The events in the windows of all members that answered. -/
def heardEvents (c : Cluster) (endings : List Ending) : List Int :=
  (heard endings).flatMap c.residents

/-- The number of members that are switched off or did not answer in time. -/
def missing (c : Cluster) (endings : List Ending) : Nat :=
  c.off.length + endings.countP (·.heard?.isNone)

/-! ### What single replies say -/

theorem residents_of_getElem? {k : Nat} {m : Member} (hm : c.members[k]? = some m) :
    c.residents k = m.node.window.residents := by
  rw [residents, hm]
  rfl

/-- A member that answers sends the sum and the number of its residents, unless it was never handed
    a batch. -/
theorem replyTo_answer_eq (hc : c.Follows seen) {k : Nat} {m : Member}
    (hm : c.members[k]? = some m) :
    c.replyTo meanKey (.answer k) =
      some (if seen k then .value m.node.id (Snapshot.ofEvents (c.residents k))
        else .absent m.node.id) := by
  rw [replyTo, Ending.position, hm, Option.map_some, FanOut.reply, Reply.ofNode, (hc k m hm).fetch_eq,
    residents_of_getElem? hm]
  cases seen k <;> rfl

/-- Where a member is absent it has no residents, so it amounts to their sum and number as well. -/
theorem replyTo_answer (hc : c.Follows seen) {k : Nat} (hk : k < c.size) :
    ∃ r, c.replyTo meanKey (.answer k) = some r ∧ r.pair = Snapshot.ofEvents (c.residents k) ∧
      r.isValue = seen k ∧ r.isUnreachable = false := by
  have hm : c.members[k]? = some c.members[k] := List.getElem?_eq_getElem hk
  refine ⟨_, replyTo_answer_eq hc hm, ?_⟩
  cases hs : seen k with
  | true => exact ⟨rfl, rfl, rfl⟩
  | false =>
    rw [residents_of_getElem? hm, (hc k _ hm).residents_eq hs]
    exact ⟨rfl, rfl, rfl⟩

theorem replyTo_expire (c : Cluster) {k : Nat} (hk : k < c.size) :
    c.replyTo meanKey (.expire k) = some (.late c.members[k].node.id c.timeout) := by
  rw [replyTo, Ending.position, List.getElem?_eq_getElem hk]
  rfl

/-! ### What all replies amount to -/

/-- What a row of replies amounts to, in terms of the endings that brought them. -/
structure Amounts (c : Cluster) (seen : Nat → Bool) (endings : List Ending)
    (replies : List Reply) : Prop where
  length_eq : replies.length = endings.length
  sum_eq : (replies.map Reply.pair).sum = Snapshot.ofEvents (c.heardEvents endings)
  total_eq : weight ((replies.map Reply.pair).map (·.total)) =
    ((heard endings).map fun k => (c.residents k).sum.natAbs).sum
  count_eq : weight ((replies.map Reply.pair).map (·.count)) = (c.heardEvents endings).length
  values_eq : replies.countP Reply.isValue = (heard endings).countP seen
  unreachable_eq : replies.countP Reply.isUnreachable = endings.countP (·.heard?.isNone)

theorem amounts_replies (hc : c.Follows seen) (hin : ∀ e ∈ endings, e.position < c.size) :
    Amounts c seen endings (endings.filterMap (c.replyTo meanKey)) := by
  induction endings with
  | nil => exact ⟨rfl, rfl, rfl, rfl, rfl, rfl⟩
  | cons e endings ih =>
    have he := hin e (List.mem_cons_self ..)
    have hlater := ih fun e' he' => hin e' (List.mem_cons_of_mem _ he')
    cases e with
    | answer k =>
      change k < c.size at he
      obtain ⟨r, hr, hpair, hvalue, hun⟩ := replyTo_answer hc he
      have hheard : heard (.answer k :: endings) = k :: heard endings := rfl
      rw [List.filterMap_cons_some hr]
      refine ⟨?_, ?_, ?_, ?_, ?_, ?_⟩
      · rw [List.length_cons, hlater.length_eq, List.length_cons]
      · rw [List.map_cons, List.sum_cons, hlater.sum_eq, hpair, heardEvents, heardEvents, hheard,
          List.flatMap_cons, Snapshot.ofEvents_append]
      · rw [List.map_cons, List.map_cons, weight_cons, hlater.total_eq, hpair]
        rfl
      · rw [List.map_cons, List.map_cons, weight_cons, hlater.count_eq, hpair, heardEvents,
          heardEvents, hheard, List.flatMap_cons, List.length_append]
        rfl
      · rw [List.countP_cons, hlater.values_eq, hvalue, hheard, List.countP_cons]
      · rw [List.countP_cons, hlater.unreachable_eq, hun, List.countP_cons]
        rfl
    | expire k =>
      change k < c.size at he
      have hheard : heard (.expire k :: endings) = heard endings := rfl
      rw [List.filterMap_cons_some (c.replyTo_expire he)]
      refine ⟨?_, ?_, ?_, ?_, ?_, ?_⟩
      · rw [List.length_cons, hlater.length_eq, List.length_cons]
      · rw [List.map_cons, List.sum_cons, hlater.sum_eq, heardEvents, heardEvents, hheard]
        exact zero_add _
      · rw [hheard, ← hlater.total_eq]
        exact Nat.zero_add _
      · rw [heardEvents, hheard, ← heardEvents, ← hlater.count_eq]
        exact Nat.zero_add _
      · rw [List.countP_cons, hlater.values_eq, hheard]
        rfl
      · rw [List.countP_cons, hlater.unreachable_eq, List.countP_cons]
        rfl

/-- The replies on behalf of members that are switched off add nothing. -/
theorem amounts_off (ms : List Member) :
    (ms.map fun m => Reply.partitioned m.node.id).map Reply.pair = List.replicate ms.length 0 ∧
      (ms.map fun m => Reply.partitioned m.node.id).countP Reply.isValue = 0 ∧
      (ms.map fun m => Reply.partitioned m.node.id).countP Reply.isUnreachable = ms.length := by
  induction ms with
  | nil => exact ⟨rfl, rfl, rfl⟩
  | cons m ms ih =>
    obtain ⟨hpair, hvalue, hun⟩ := ih
    refine ⟨?_, ?_, ?_⟩
    · rw [List.map_cons, List.map_cons, hpair, List.length_cons, List.replicate_succ]
      rfl
    · rw [List.map_cons, List.countP_cons, hvalue]
      rfl
    · rw [List.map_cons, List.countP_cons, hun]
      rfl

theorem weight_replicate_zero (n : Nat) (f : Snapshot → Int) (hf : f 0 = 0) :
    weight ((List.replicate n 0).map f) = 0 := by
  rw [weight, List.map_replicate, List.map_replicate, hf, List.sum_replicate]
  exact Nat.mul_zero n

theorem position_lt_size
    (hp : (endings.map Ending.position).Perm (FanOut.start c meanKey).pending) :
    ∀ e ∈ endings, e.position < c.size := by
  intro e he
  exact FanOut.lt_of_mem_pending (hp.subset (List.mem_map_of_mem he))

/-- There is room for all replies if there is for the windows of the members that answered. -/
theorem room_collect (hc : c.Follows seen)
    (hp : (endings.map Ending.position).Perm (FanOut.start c meanKey).pending)
    (ht : ((((heard endings).map fun k => (c.residents k).sum.natAbs).sum : Nat) : Int) ≤ greatest)
    (hn : ((c.heardEvents endings).length : Int) ≤ greatest) :
    Reduction.Room 0 ((c.collect meanKey endings).map Reply.pair) := by
  have amounts := amounts_replies hc (position_lt_size hp)
  rw [collect_eq hp, List.map_append, (amounts_off c.off).1]
  refine ⟨?_, ?_⟩
  · change ((0 + weight _ : Nat) : Int) ≤ greatest
    rw [List.map_append, weight_append, weight_replicate_zero _ _ rfl, amounts.total_eq,
      Nat.zero_add, Nat.zero_add]
    exact ht
  · change ((0 + weight _ : Nat) : Int) ≤ greatest
    rw [List.map_append, weight_append, weight_replicate_zero _ _ rfl, amounts.count_eq,
      Nat.zero_add, Nat.zero_add]
    exact hn

/-- The fold of the replies, if there is room for those of the members that answered. -/
theorem ofReplies_collect (hc : c.Follows seen)
    (hp : (endings.map Ending.position).Perm (FanOut.start c meanKey).pending)
    (ht : ((((heard endings).map fun k => (c.residents k).sum.natAbs).sum : Nat) : Int) ≤ greatest)
    (hn : ((c.heardEvents endings).length : Int) ≤ greatest) :
    Reduction.ofReplies (c.collect meanKey endings) =
      ⟨Snapshot.ofEvents (c.heardEvents endings), c.size, (heard endings).countP seen,
        c.missing endings⟩ := by
  have amounts := amounts_replies hc (position_lt_size hp)
  obtain ⟨hpair, hvalue, hun⟩ := amounts_off c.off
  have hlength : c.off.length + endings.length = c.size := by
    rw [← c.length_off_add_pending meanKey, ← hp.length_eq, List.length_map]
  rw [Reduction.ofReplies, Reduction.collectAll_of_passes (room_collect hc hp ht hn).passes,
    collect_eq hp]
  refine Reduction.ext ?_ ?_ ?_ ?_
  · change 0 + ((c.off.map _ ++ _).map Reply.pair).sum = _
    rw [List.map_append, hpair, List.sum_append, amounts.sum_eq, List.sum_replicate, nsmul_zero,
      zero_add, zero_add]
  · change 0 + (c.off.map _ ++ _).length = _
    rw [List.length_append, List.length_map, amounts.length_eq, hlength, Nat.zero_add]
  · change 0 + (c.off.map _ ++ _).countP Reply.isValue = _
    rw [List.countP_append, hvalue, amounts.values_eq, Nat.zero_add, Nat.zero_add]
  · change 0 + (c.off.map _ ++ _).countP Reply.isUnreachable = _
    rw [List.countP_append, hun, amounts.unreachable_eq, Nat.zero_add]
    rfl

/-- The members that answered, in another order, amount to the same. -/
theorem ofReplies_perm (hc : c.Follows seen)
    (hp : (endings.map Ending.position).Perm (FanOut.start c meanKey).pending)
    (ht : ((((heard endings).map fun k => (c.residents k).sum.natAbs).sum : Nat) : Int) ≤ greatest)
    (hn : ((c.heardEvents endings).length : Int) ≤ greatest) {endings' : List Ending}
    (h : endings'.Perm endings) :
    Reduction.ofReplies (c.collect meanKey endings') =
      Reduction.ofReplies (c.collect meanKey endings) := by
  have hheard : (heard endings').Perm (heard endings) := h.filterMap _
  have hevents : (c.heardEvents endings').Perm (c.heardEvents endings) := hheard.flatMap_right _
  have hmissing : c.missing endings' = c.missing endings := by
    rw [missing, missing, h.countP_eq]
  have htotal : ((heard endings').map fun k => (c.residents k).sum.natAbs).sum =
      ((heard endings).map fun k => (c.residents k).sum.natAbs).sum := (hheard.map _).sum_eq
  rw [ofReplies_collect hc hp ht hn,
    ofReplies_collect hc ((h.map _).trans hp) (htotal ▸ ht) (hevents.length_eq ▸ hn),
    Snapshot.ofEvents_perm hevents, hheard.countP_eq, hmissing]

theorem count_heardEvents (c : Cluster) (endings : List Ending) :
    (Snapshot.ofEvents (c.heardEvents endings)).count = 0 ↔
      ¬∃ k ∈ heard endings, c.residents k ≠ [] := by
  change ((c.heardEvents endings).length : Int) = 0 ↔ _
  rw [Int.natCast_eq_zero, List.length_eq_zero_iff, heardEvents, List.flatMap_eq_nil_iff]
  push Not
  rfl

/-- The global average of a cluster that was only handed batches and switched: there is one exactly
    if a member that answered has a window that is not empty, it is that of all events in the
    windows of those who answered, and it does not depend on the order of the answers. -/
theorem reduce_collect_run {nodes : List (Nat × Nat)} {timeout : Nat} {c₀ : Cluster}
    (hstart : start nodes timeout = .ok c₀) (steps : List Step) (endings : List Ending)
    (hp : (endings.map Ending.position).Perm (FanOut.start (c₀.run steps) meanKey).pending)
    (ht : ((((heard endings).map fun k => ((c₀.run steps).residents k).sum.natAbs).sum : Nat) : Int)
      ≤ greatest)
    (hn : (((c₀.run steps).heardEvents endings).length : Int) ≤ greatest) (rc : ReduceCounters) :
    (rc.reduce ((c₀.run steps).collect meanKey endings)).1 =
      (if ∃ k ∈ heard endings, (c₀.run steps).residents k ≠ [] then
        .ok {
          average := Float.ofInt ((c₀.run steps).heardEvents endings).sum /
            Float.ofInt ((c₀.run steps).heardEvents endings).length
          total := ((c₀.run steps).heardEvents endings).sum
          count := ((c₀.run steps).heardEvents endings).length
          contributing := (heard endings).countP (touched steps)
          unreachable := (c₀.run steps).missing endings }
      else .error (.noData (c₀.run steps).size ((c₀.run steps).missing endings))) ∧
    ∀ endings', endings'.Perm endings →
      (rc.reduce ((c₀.run steps).collect meanKey endings')).1 =
        (rc.reduce ((c₀.run steps).collect meanKey endings)).1 := by
  have hc : (c₀.run steps).Follows (touched steps) := by
    have h := follows_run (follows_start hstart) steps
    simp only [Bool.false_or] at h
    exact h
  refine ⟨?_, fun endings' h => congrArg Reduction.result (ofReplies_perm hc hp ht hn h)⟩
  change (Reduction.ofReplies _).result = _
  rw [ofReplies_collect hc hp ht hn, Reduction.result_eq]
  by_cases hdata : ∃ k ∈ heard endings, (c₀.run steps).residents k ≠ []
  · rw [if_pos hdata, if_neg (fun h => (count_heardEvents _ _).1 h hdata)]
    rfl
  · rw [if_neg hdata, if_pos ((count_heardEvents _ _).2 hdata)]

/-- Two members with one number, one whose only batch is refused, one switched off, one too late. -/
theorem reduce_collect_run_of_four :
    ∃ c₀, start [(7, 2), (7, 1), (3, 4), (9, 2)] 50 = .ok c₀ ∧
      (ReduceCounters.zero.reduce
        ((c₀.run [.process 0 [5, 6, 7], .process 2 [greatest, 1], .switch 9 false]).collect meanKey
          [.answer 2, .expire 1, .answer 0])).1 =
        .ok ⟨Float.ofInt 13 / Float.ofInt 2, 13, 2, 2, 2⟩ := by
  refine ⟨_, rfl, ?_⟩
  refine (@reduce_collect_run [(7, 2), (7, 1), (3, 4), (9, 2)] 50 _ rfl _ _ (by decide) (by decide)
    (by decide) _).1.trans ?_
  rw [if_pos (by decide)]
  rfl

end Cluster

end WindowedMean
