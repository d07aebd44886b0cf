import WindowedMean.Proofs.Readings

/-! What every member of a cluster is owed by a query.

    A query replies at once on behalf of the members that are switched off, and as the waits end on
    behalf of the others. Put together in whatever order, the two are what one would write down going
    through the members from the first to the last:

        members   on      off     on      on
        owed      value   part.   late    absent
        replies   part.  |  absent  value  late

    No member is left out and none is written down twice, also where members share a number: it is
    by their position that they are told apart. -/

namespace WindowedMean

/-- How the wait for the member at a position ends, given who is late. -/
def Ending.ofLate (late : Nat → Bool) (k : Nat) : Ending := if late k then .expire k else .answer k

@[simp] theorem Ending.position_ofLate (late : Nat → Bool) (k : Nat) :
    (ofLate late k).position = k := by
  rw [ofLate]
  split <;> rfl

/-- A member that is switched off is said to be partitioned, and one that is late not to have answered
    in its time. Any other is quoted with what it has stored under the key, or has nothing there. -/
def Cluster.owed (c : Cluster) (key : String) (late : Nat → Bool) (k : Nat) (m : Member) : Reply :=
  if m.reachable = false then .unreachable m.node.id "partitioned"
  else if late k = true then .unreachable m.node.id s!"no answer within {c.timeout}ms"
  else match m.node.fetch key with
    | some s => .value m.node.id s
    | none => .absent m.node.id

namespace Cluster
variable {c : Cluster} {key : String} {late : Nat → Bool} {order : List Nat}

theorem node_owed (k : Nat) (m : Member) : (c.owed key late k m).node = m.node.id := by
  rw [owed]
  split
  · rfl
  · split
    · rfl
    · split <;> rfl

theorem owed_of_off {m : Member} (hm : m.reachable = false) (k : Nat) :
    c.owed key late k m = .partitioned m.node.id := by
  rw [owed, if_pos hm]
  rfl

theorem owed_of_on {m : Member} (hm : m.reachable = true) (k : Nat) :
    c.owed key late k m = FanOut.reply c key m (.ofLate late k) := by
  rw [owed, if_neg (by rw [hm]; decide), Ending.ofLate]
  split <;> rfl

/-- A wait that ran out is not told like a member that is switched off. -/
theorem late_ne_partitioned (node timeout node' : Nat) :
    Reply.late node timeout ≠ .partitioned node' := by
  intro h
  have hreason : "no answer within " ++ toString timeout ++ "ms" = "partitioned" :=
    (Reply.unreachable.inj h).2
  have hfirst := congrArg (fun s => s.toList.head?) hreason
  simp at hfirst

theorem owed_ne_partitioned {m : Member} (hm : m.reachable = true) (k node : Nat) :
    c.owed key late k m ≠ .partitioned node := by
  rw [owed_of_on hm, Ending.ofLate]
  split
  · exact late_ne_partitioned m.node.id c.timeout node
  · rw [FanOut.reply, Reply.ofNode]
    split <;> rintro ⟨⟩

/-! ### By position -/

theorem perm_on (hnodup : order.Nodup)
    (horder : ∀ k, k ∈ order ↔ ∃ m, c.members[k]? = some m ∧ m.reachable = true) :
    order.Perm (c.on.map Prod.snd) :=
  (List.perm_ext_iff_of_nodup hnodup (nodup_map_snd_on c)).2 fun k =>
    (horder k).trans (mem_map_snd_on k).symm

theorem map_partitioned_off (c : Cluster) (key : String) (late : Nat → Bool) :
    c.off.map (fun m => Reply.partitioned m.node.id) =
      (c.members.zipIdx.filter (!·.1.reachable)).map fun p => c.owed key late p.2 p.1 := by
  rw [off_eq_map_fst, List.map_map]
  refine List.map_congr_left fun p hp => ?_
  have hoff := (List.mem_filter.1 hp).2
  exact (owed_of_off (by simpa using hoff) p.2).symm

theorem filterMap_owed_perm (hp : order.Perm (c.on.map Prod.snd)) :
    (order.filterMap fun k => c.members[k]?.map (c.owed key late k)).Perm
      (c.on.map fun p => c.owed key late p.2 p.1) := by
  refine (hp.filterMap _).trans (List.Perm.of_eq ?_)
  rw [List.filterMap_map, ← List.filterMap_eq_map]
  refine List.filterMap_congr fun p hmem => ?_
  simp only [Function.comp, (getElem?_of_mem_on hmem).1, Option.map_some]

/-- What is owed in all is what is owed for those who are switched off and for the others. -/
theorem owed_perm_mapIdx (hp : order.Perm (c.on.map Prod.snd)) :
    (c.off.map (fun m => Reply.partitioned m.node.id) ++
        order.filterMap fun k => c.members[k]?.map (c.owed key late k)).Perm
      (c.members.mapIdx (c.owed key late)) := by
  rw [map_partitioned_off c key late, List.mapIdx_eq_zipIdx_map]
  refine ((filterMap_owed_perm hp).append_left _).trans ?_
  rw [← List.map_append]
  exact c.filter_append_on_perm.map _

theorem map_node_mapIdx_owed (c : Cluster) (key : String) (late : Nat → Bool) :
    (c.members.mapIdx (c.owed key late)).map Reply.node = c.ids := by
  refine List.ext_getElem? fun k => ?_
  rw [ids, List.getElem?_map, List.getElem?_mapIdx, List.getElem?_map, Option.map_map]
  exact congrArg (Option.map · _) (funext fun m => node_owed k m)

/-! ### The whole query -/

theorem perm_pending (late : Nat → Bool) (key : String) (hp : order.Perm (c.on.map Prod.snd)) :
    ((order.map (Ending.ofLate late)).map Ending.position).Perm (FanOut.start c key).pending := by
  have hpositions : (order.map (Ending.ofLate late)).map Ending.position = order := by
    rw [List.map_map]
    exact List.map_id'' (Ending.position_ofLate late) order
  rw [hpositions]
  exact hp.trans (c.pending_perm key).symm

theorem collect_ofLate (hp : order.Perm (c.on.map Prod.snd)) :
    c.collect key (order.map (.ofLate late)) =
      c.off.map (fun m => Reply.partitioned m.node.id) ++
        order.filterMap fun k => c.members[k]?.map (c.owed key late k) := by
  rw [collect_eq (perm_pending late key hp), List.filterMap_map]
  refine congrArg _ (List.filterMap_congr fun k hk => ?_)
  obtain ⟨m, hm, hon⟩ := (mem_map_snd_on k).1 (hp.subset hk)
  simp only [Function.comp, replyTo, Ending.position_ofLate, hm, Option.map_some, owed_of_on hon]

/-- A query in which nothing but waits end leaves the cluster alone, and in the end nobody is
    waited for. -/
theorem during_ofLate (hp : order.Perm (c.on.map Prod.snd)) :
    FanOut.during c key ((order.map (.ofLate late)).map .finish) =
      (c, ⟨key, c.collect key (order.map (.ofLate late)), []⟩) := by
  have hends := FanOut.foldl_finish (perm_pending late key hp) fun _ => FanOut.lt_of_mem_pending
  rw [FanOut.during_finish, collect, hends]
  rfl

/-- Whoever is switched off or late, and in whatever order the waits of the others end: a query
    brings exactly one reply for each member, the one that is owed for it. Those for the members that
    are switched off come first, in the order of the members, and nobody else is said to be
    partitioned; the others come as the waits end. Nobody is pending any more, and the cluster is as
    it was. -/
theorem one_reply_each (c : Cluster) (key : String) (late : Nat → Bool) {order : List Nat}
    (hnodup : order.Nodup)
    (horder : ∀ k, k ∈ order ↔ ∃ m, c.members[k]? = some m ∧ m.reachable = true) :
    let endings := order.map (Ending.ofLate late)
    let replies := c.collect key endings
    replies.Perm (c.members.mapIdx (c.owed key late)) ∧
    (c.members.mapIdx (c.owed key late)).map Reply.node = c.ids ∧
    replies.length = c.size ∧
    (∃ others,
      replies = (c.members.filter (!·.reachable)).map
        (fun m => .unreachable m.node.id "partitioned") ++ others ∧
      others = order.filterMap (fun k => c.members[k]?.map (c.owed key late k)) ∧
      ∀ reply ∈ others, ∀ node, reply ≠ .unreachable node "partitioned") ∧
    FanOut.during c key (endings.map .finish) = (c, ⟨key, replies, []⟩) := by
  intro endings replies
  have hp := perm_on hnodup horder
  have hperm : replies.Perm (c.members.mapIdx (c.owed key late)) :=
    (List.Perm.of_eq (collect_ofLate hp)).trans (owed_perm_mapIdx hp)
  refine ⟨hperm, c.map_node_mapIdx_owed key late, ?_, ⟨_, collect_ofLate hp, rfl, ?_⟩,
    during_ofLate hp⟩
  · rw [hperm.length_eq, List.length_mapIdx]
    rfl
  · intro reply hmem node
    obtain ⟨k, hk, hreply⟩ := List.mem_filterMap.1 hmem
    obtain ⟨m, hm, hon⟩ := (horder k).1 hk
    rw [hm] at hreply
    cases hreply
    exact owed_ne_partitioned hon k node

/-- Two members share the number 7; the second of them is late, the last member is switched off, and
    the one that has nothing stored answers before the first. -/
theorem one_reply_each_of_four :
    let c := (ofNodes [.ofWindow 7 (.empty 2 Nat.two_pos), .ofWindow 7 (.empty 1 Nat.one_pos),
      .ofWindow 3 (.empty 2 Nat.two_pos), .ofWindow 9 (.empty 2 Nat.two_pos)] 50).run
        [.process 0 [5, 6], .process 1 [8], .switch 9 false]
    c.collect meanKey [.answer 2, .answer 0, .expire 1] =
      [.partitioned 9, .absent 3, .value 7 ⟨11, 2⟩, .late 7 50] ∧
    (c.collect meanKey [.answer 2, .answer 0, .expire 1]).Perm
      [.value 7 ⟨11, 2⟩, .late 7 50, .absent 3, .partitioned 9] := by
  intro c
  have horder (k : Nat) : k ∈ [2, 0, 1] ↔ ∃ m, c.members[k]? = some m ∧ m.reachable = true := by
    match k with
    | 0 | 1 | 2 | 3 => decide
    | k + 4 =>
      have hnone : c.members[k + 4]? = none := List.getElem?_eq_none (Nat.le_add_left 4 k)
      simp [hnone]
  obtain ⟨hperm, -, -, ⟨others, hreplies, rfl, -⟩, -⟩ :=
    c.one_reply_each meanKey (· == 1) (by decide) horder
  exact ⟨hreplies.trans rfl, hperm⟩

end Cluster

end WindowedMean
