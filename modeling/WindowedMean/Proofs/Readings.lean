import WindowedMean.Proofs.ArrivalOrder
import WindowedMean.Proofs.Interleaving

/-! Whose pairs a global average is made of.

    A query may be under way while batches come in, some members may be switched off or late, the
    query may even be cut short, and the fold leaves out what would take its sum out of range:

        members  ⊇  answered  ⊇  has a value  ⊇  merged

    Whatever happens, what is merged are pairs that different members had stored, each at a moment of
    the query. A member is no longer waited for once it has answered, so none is merged twice. -/

namespace WindowedMean

/-- The pair that a reply brings, if it brings one. -/
def Reply.snapshot? : Reply → Option Snapshot
  | .value _ s => some s
  | _ => none

/-! ### The query -/

namespace FanOut

/-- The member at a position answers in one of the turns, with what it has stored by then. -/
def Read (c : Cluster) (turns : List Turn) (k : Nat) (s : Snapshot) : Prop :=
  ∃ earlier later m, turns = earlier ++ .finish (.answer k) :: later ∧
    (c.run (steps earlier)).members[k]? = some m ∧ m.node.fetch meanKey = some s

/-- The pairs that have come back by a moment of a query, with the positions of those they are from. -/
structure Heard (c : Cluster) (turns : List Turn) (readings : List (Nat × Snapshot)) (f : FanOut) :
    Prop where
  key_eq : f.key = meanKey
  values_eq : f.replies.filterMap Reply.snapshot? = readings.map (·.2)
  read : ∀ p ∈ readings, Read c turns p.1 p.2
  /-- Whoever has answered is not waited for. -/
  nodup : (readings.map (·.1) ++ f.pending).Nodup

variable {c : Cluster} {turns : List Turn} {readings : List (Nat × Snapshot)} {f : FanOut} {k : Nat}
  {s : Snapshot}

theorem Read.append (h : Read c turns k s) (more : List Turn) : Read c (turns ++ more) k s := by
  obtain ⟨earlier, later, m, rfl, hm, hs⟩ := h
  exact ⟨earlier, later ++ more, m, by simp, hm, hs⟩

theorem heard_start (c : Cluster) : Heard c [] [] (.start c meanKey) := by
  refine ⟨rfl, ?_, fun p hp => absurd hp List.not_mem_nil, ?_⟩
  · refine List.filterMap_eq_nil_iff.2 fun reply hr => ?_
    obtain ⟨m, -, rfl⟩ := List.mem_map.1 hr
    rfl
  · exact List.nodup_range.filter _

theorem Heard.later (h : Heard c turns readings f) (t : Turn) : Heard c (turns ++ [t]) readings f :=
  { h with read := fun p hp => (h.read p hp).append [t] }

/-- Only an answer brings a pair, and the pair is what the member has stored. -/
theorem eq_answer_of_reply {m : Member} {e : Ending}
    (h : (reply c meanKey m e).snapshot? = some s) :
    e = .answer e.position ∧ m.node.fetch meanKey = some s := by
  cases e with
  | expire k => cases h
  | answer k =>
    rw [reply, Reply.ofNode] at h
    cases hf : m.node.fetch meanKey with
    | none =>
      rw [hf] at h
      cases h
    | some s' =>
      rw [hf] at h
      cases h
      exact ⟨rfl, rfl⟩

/-- What an ending adds to what has been heard. -/
theorem Heard.finish (h : Heard c turns readings f) (e : Ending) :
    ∃ readings', Heard c (turns ++ [.finish e]) readings' (f.finish (c.run (steps turns)) e) := by
  by_cases hp : e.position ∈ f.pending
  swap
  · rw [FanOut.finish, if_neg hp]
    exact ⟨readings, h.later _⟩
  cases hm : (c.run (steps turns)).members[e.position]? with
  | none =>
    rw [FanOut.finish, if_pos hp, hm]
    exact ⟨readings, h.later _⟩
  | some m =>
    rw [finish_of_mem hp hm]
    -- The member is no longer pending, so its position is not among the readings yet.
    have hnodup := h.nodup
    rw [(List.perm_cons_erase hp).append_left _ |>.nodup_iff] at hnodup
    have hrest : (readings.map (·.1) ++ f.pending.erase e.position).Nodup :=
      hnodup.sublist ((List.sublist_cons_self ..).append_left _)
    cases hr : (FanOut.reply (c.run (steps turns)) f.key m e).snapshot? with
    | none =>
      refine ⟨readings, h.key_eq, ?_, (h.later _).read, hrest⟩
      rw [List.filterMap_append, h.values_eq, List.filterMap_cons_none hr, List.filterMap_nil,
        List.append_nil]
    | some s =>
      rw [h.key_eq] at hr
      obtain ⟨hanswer, hs⟩ := eq_answer_of_reply hr
      refine ⟨readings ++ [(e.position, s)], h.key_eq, ?_, fun p hp' => ?_, ?_⟩
      · rw [List.filterMap_append, h.values_eq, h.key_eq, List.filterMap_cons_some hr,
          List.filterMap_nil, List.map_append]
        rfl
      · rcases List.mem_append.1 hp' with hp' | hp'
        · exact (h.read p hp').append _
        · rw [List.mem_singleton.1 hp']
          exact ⟨turns, [], m, by rw [← hanswer], hm, hs⟩
      · rw [List.map_append, List.append_assoc]
        exact hnodup

/-- At every moment of a query, all that came back was read off different members. -/
theorem heard_during (c : Cluster) (turns : List Turn) :
    ∃ readings, Heard c turns readings (during c meanKey turns).2 := by
  -- From the end of the turns: where a member is read depends on all the turns before.
  induction turns using List.reverseRecOn with
  | nil => exact ⟨[], heard_start c⟩
  | append_singleton turns t ih =>
    obtain ⟨readings, h⟩ := ih
    have hcluster : (during c meanKey turns).1 = c.run (steps turns) := foldl_turn_fst turns c _
    have hlast : during c meanKey (turns ++ [t]) = turn (during c meanKey turns) t := by
      rw [during, List.foldl_append]
      rfl
    rw [hlast]
    cases t with
    | step s => exact ⟨readings, h.later _⟩
    | finish e =>
      rw [turn, hcluster]
      exact h.finish e

end FanOut

/-! ### The fold -/

namespace Reduction

/-- Of the pairs that come, the fold merges some and leaves out the others. -/
theorem collectAll_merged (replies : List Reply) (r : Reduction) :
    ∃ merged : List Snapshot, merged.Sublist (replies.filterMap Reply.snapshot?) ∧
      (r.collectAll replies).sum = r.sum + merged.sum ∧
      (r.collectAll replies).contributing = r.contributing + merged.length := by
  induction replies generalizing r with
  | nil => exact ⟨[], List.Sublist.refl _, (add_zero r.sum).symm, rfl⟩
  | cons reply later ih =>
    rw [collectAll]
    rcases r.collect_cases reply with ⟨hr, -⟩ | ⟨-, -, hr⟩
    · obtain ⟨merged, hsub, hsum, hcontributing⟩ := ih (r.plus reply)
      rw [hr]
      cases reply with
      | value n s =>
        refine ⟨s :: merged, hsub.cons_cons s, ?_, ?_⟩
        · rw [List.sum_cons, ← add_assoc]
          exact hsum
        · rw [hcontributing, List.length_cons]
          exact Nat.add_right_comm r.contributing 1 merged.length
      | absent n =>
        refine ⟨merged, hsub, hsum.trans ?_, hcontributing⟩
        exact congrArg (· + merged.sum) (add_zero r.sum)
      | unreachable n reason =>
        refine ⟨merged, hsub, hsum.trans ?_, hcontributing⟩
        exact congrArg (· + merged.sum) (add_zero r.sum)
    · obtain ⟨merged, hsub, hsum, hcontributing⟩ := ih { r with nodes := r.nodes + 1 }
      rw [hr]
      refine ⟨merged, hsub.trans ?_, hsum, hcontributing⟩
      cases reply with
      | value n s => exact List.sublist_cons_self ..
      | _ => exact List.Sublist.refl _

end Reduction

/-- The average is that of the pairs in the readings, and nobody is in there twice. -/
structure GlobalAverage.MadeOf (g : GlobalAverage) (readings : List (Nat × Snapshot)) : Prop where
  sum_eq : ⟨g.total, g.count⟩ = (readings.map (·.2)).sum
  count_ne_zero : g.count ≠ 0
  contributing_eq : g.contributing = readings.length
  nodup : (readings.map (·.1)).Nodup

namespace FanOut
variable {c : Cluster} {turns : List Turn}

/-- A global average is made of what different members had stored when they answered. -/
theorem madeOf_of_reduce {counters : ReduceCounters} {g : GlobalAverage}
    (h : (counters.reduce (during c meanKey turns).2.replies).1 = .ok g) :
    ∃ readings, g.MadeOf readings ∧ ∀ p ∈ readings, Read c turns p.1 p.2 := by
  obtain ⟨all, hkey, hvalues, hread, hnodup⟩ := heard_during c turns
  generalize (during c meanKey turns).2.replies = replies at h hvalues
  obtain ⟨merged, hsub, hsum, hcontributing⟩ := Reduction.collectAll_merged replies .empty
  rw [hvalues] at hsub
  obtain ⟨readings, hreadings, rfl⟩ := List.sublist_map_iff.1 hsub
  have hresult : (Reduction.ofReplies replies).result = .ok g := h
  rw [Reduction.result_eq] at hresult
  split at hresult
  · cases hresult
  · rename_i hne
    cases hresult
    refine ⟨readings, ⟨?_, hne, ?_, ?_⟩, fun p hp => hread p (hreadings.subset hp)⟩
    · exact hsum.trans (zero_add _)
    · rw [List.length_map] at hcontributing
      exact hcontributing.trans (Nat.zero_add _)
    · exact (List.nodup_append.1 hnodup).1.sublist (hreadings.map _)

/-- A query to nodes that do not change meanwhile is a query all the same. -/
theorem during_finish (c : Cluster) (key : String) (endings : List Ending) :
    during c key (endings.map .finish) = (c, endings.foldl (FanOut.finish c) (.start c key)) := by
  have hall (f : FanOut) : ((endings.map Turn.finish).foldl turn (c, f)) =
      (c, endings.foldl (FanOut.finish c) f) := by
    induction endings generalizing f with
    | nil => rfl
    | cons e endings ih => exact ih (f.finish c e)
  exact hall (.start c key)

theorem replies_during_finish (c : Cluster) (key : String) (endings : List Ending) :
    (during c key (endings.map .finish)).2.replies = c.collect key endings := by
  rw [during_finish, Cluster.collect]

end FanOut

end WindowedMean
