import Mathlib.Data.List.Perm.Lattice
import WindowedMean.Proofs.Merging

/-! Whether the order of the replies makes a difference.

    A fold takes replies in as they come and leaves out one that would take its sum out of range. So
    it is not the sum of all replies that decides, but every sum on the way:

        greatest, 1, -1    the second is left out, and the sum is not that of all three
        greatest, -1, 1    all are taken in, and it is

    In every order all replies are taken in exactly if the gains alone, the positive totals and the
    positive counts, are in range, and the losses alone are: some order has all gains first and some
    has all losses first, and no sum on the way is beyond these. -/

namespace WindowedMean

/-- The positive integers of a list, added up. -/
def gains (ns : List Int) : Int := (ns.filter (0 < ·)).sum

/-- The negative integers of a list, added up. -/
def losses (ns : List Int) : Int := (ns.filter (· < 0)).sum

theorem gains_cons (n : Int) (ns : List Int) : gains (n :: ns) = max n 0 + gains ns := by
  by_cases hn : 0 < n
  · simp [gains, hn]
    omega
  · simp [gains, hn]
    omega

theorem losses_cons (n : Int) (ns : List Int) : losses (n :: ns) = min n 0 + losses ns := by
  by_cases hn : n < 0
  · simp [losses, hn]
    omega
  · simp [losses, hn]
    omega

theorem gains_append (ns ms : List Int) : gains (ns ++ ms) = gains ns + gains ms := by
  simp [gains]

theorem losses_append (ns ms : List Int) : losses (ns ++ ms) = losses ns + losses ms := by
  simp [losses]

theorem gains_nonneg : ∀ ns : List Int, 0 ≤ gains ns
  | [] => Int.le_refl 0
  | n :: ns => by
    have ih := gains_nonneg ns
    rw [gains_cons]
    omega

theorem losses_nonpos : ∀ ns : List Int, losses ns ≤ 0
  | [] => Int.le_refl 0
  | n :: ns => by
    have ih := losses_nonpos ns
    rw [losses_cons]
    omega

theorem losses_add_gains : ∀ ns : List Int, losses ns + gains ns = ns.sum
  | [] => rfl
  | n :: ns => by
    have ih := losses_add_gains ns
    rw [losses_cons, gains_cons, List.sum_cons]
    omega

/-- The first few integers of a list add up to something between its losses and its gains. -/
theorem sum_mem_of_prefix {ns ms : List Int} (h : ns <+: ms) :
    losses ms ≤ ns.sum ∧ ns.sum ≤ gains ms := by
  obtain ⟨rest, rfl⟩ := h
  have hsum := losses_add_gains ns
  have hg := gains_nonneg ns
  have hl := losses_nonpos ns
  have hg' := gains_nonneg rest
  have hl' := losses_nonpos rest
  rw [gains_append, losses_append]
  omega

/-- In some order, those with a property come first. -/
theorem exists_perm_filter_prefix {α : Type} (p : α → Bool) (l : List α) :
    ∃ l', l'.Perm l ∧ l.filter p <+: l' :=
  ⟨_, List.filter_append_perm p l, List.prefix_append ..⟩

namespace Reduction
variable {r : Reduction} {replies : List Reply}

/-- Neither the gains nor the losses of totals and counts leave the range. -/
structure Balanced (replies : List Reply) : Prop where
  totals : least ≤ losses (replies.map (·.pair.total)) ∧
    gains (replies.map (·.pair.total)) ≤ greatest
  counts : least ≤ losses (replies.map (·.pair.count)) ∧
    gains (replies.map (·.pair.count)) ≤ greatest

theorem Balanced.passes (h : Balanced replies) : Passes 0 (replies.map Reply.pair) := by
  intro first hfirst
  have ht := sum_mem_of_prefix (hfirst.map (·.total))
  have hc := sum_mem_of_prefix (hfirst.map (·.count))
  rw [List.map_map] at ht hc
  obtain ⟨⟨htl, htg⟩, hcl, hcg⟩ := h
  rw [zero_add]
  refine ⟨?_, ?_⟩
  · rw [Snapshot.total_sum]
    exact ⟨Int.le_trans htl ht.1, Int.le_trans ht.2 htg⟩
  · rw [Snapshot.count_sum]
    exact ⟨Int.le_trans hcl hc.1, Int.le_trans hc.2 hcg⟩

theorem Balanced.perm (h : Balanced replies) {replies' : List Reply} (hp : replies'.Perm replies) :
    Balanced replies' := by
  have hl : ∀ f : Reply → Int, losses (replies'.map f) = losses (replies.map f) := fun f =>
    ((hp.map f).filter _).sum_eq
  have hg : ∀ f : Reply → Int, gains (replies'.map f) = gains (replies.map f) := fun f =>
    ((hp.map f).filter _).sum_eq
  refine ⟨?_, ?_⟩
  · rw [hl, hg]
    exact h.totals
  · rw [hl, hg]
    exact h.counts

/-- Where those with a property come first and the row passes, their sum is in range. -/
theorem inRange_of_forall_passes
    (h : ∀ replies' : List Reply, replies'.Perm replies → Passes 0 (replies'.map Reply.pair))
    (p : Reply → Bool) : ((replies.filter p).map Reply.pair).sum.InRange := by
  obtain ⟨replies', hp, hfirst⟩ := exists_perm_filter_prefix p replies
  have hs := h replies' hp _ (hfirst.map Reply.pair)
  rwa [zero_add] at hs

/-- A row passes in every order exactly if it is balanced. -/
theorem forall_passes_iff :
    (∀ replies' : List Reply, replies'.Perm replies → Passes 0 (replies'.map Reply.pair)) ↔
      Balanced replies := by
  constructor
  · intro h
    refine ⟨⟨?_, ?_⟩, ?_, ?_⟩
    · have hs := (inRange_of_forall_passes h (·.pair.total < 0)).1.1
      rw [Snapshot.total_sum, List.map_map] at hs
      rwa [losses, List.filter_map]
    · have hs := (inRange_of_forall_passes h (0 < ·.pair.total)).1.2
      rw [Snapshot.total_sum, List.map_map] at hs
      rwa [gains, List.filter_map]
    · have hs := (inRange_of_forall_passes h (·.pair.count < 0)).2.1
      rw [Snapshot.count_sum, List.map_map] at hs
      rwa [losses, List.filter_map]
    · have hs := (inRange_of_forall_passes h (0 < ·.pair.count)).2.2
      rw [Snapshot.count_sum, List.map_map] at hs
      rwa [gains, List.filter_map]
  · intro h replies' hp
    exact (h.perm hp).passes

/-! ### What is left out -/

/-- A reply is taken in or, where it is a value that would take the sum out of range, left out. -/
theorem collect_cases (r : Reduction) (reply : Reply) :
    (r.collect reply = (true, r.plus reply) ∧
      (r.sum.InRange → (r.sum + reply.pair).InRange)) ∨
    (reply.isValue = true ∧ ¬ (r.sum + reply.pair).InRange ∧
      r.collect reply = (true, { r with nodes := r.nodes + 1 })) := by
  by_cases h : (r.sum + reply.pair).InRange
  · exact Or.inl ⟨collect_of_inRange h, fun _ => h⟩
  · cases hv : reply.isValue with
    | true =>
      refine Or.inr ⟨rfl, h, ?_⟩
      cases reply with
      | value n s =>
        have hs : r.sum.add s = .error .overflow := Snapshot.add_eq_error_iff.2 ⟨h, rfl⟩
        simp only [collect, hs]
      | absent n => cases hv
      | unreachable n reason => cases hv
    | false =>
      refine Or.inl ⟨collect_of_not_value hv, ?_⟩
      rw [pair_of_not_value hv, add_zero]
      exact id

theorem contributing_collectAll_le : ∀ (replies : List Reply) (r : Reduction),
    (r.collectAll replies).contributing ≤ r.contributing + replies.countP Reply.isValue
  | [], r => Nat.le_refl _
  | reply :: later, r => by
    rw [collectAll, ← countP_cons_toNat]
    rcases r.collect_cases reply with ⟨hr, -⟩ | ⟨-, -, hr⟩
    · rw [hr]
      exact contributing_collectAll_le later (r.plus reply)
    · rw [hr]
      have ih := contributing_collectAll_le later { r with nodes := r.nodes + 1 }
      simp only at ih ⊢
      omega

/-- All values of a row are taken in exactly if the row passes. -/
theorem contributing_collectAll_eq_iff : ∀ (replies : List Reply) {r : Reduction}, r.sum.InRange →
    ((r.collectAll replies).contributing = r.contributing + replies.countP Reply.isValue ↔
      Passes r.sum (replies.map Reply.pair))
  | [], r, hr => by
    refine iff_of_true rfl ?_
    intro first hfirst
    rwa [List.prefix_nil.1 hfirst, List.sum_nil, add_zero]
  | reply :: later, r, hr => by
    rw [collectAll, List.map_cons, passes_cons, ← countP_cons_toNat]
    rcases r.collect_cases reply with ⟨hc, hsum⟩ | ⟨hvalue, hsum, hc⟩
    · rw [hc]
      have ih := contributing_collectAll_eq_iff later (r := r.plus reply) (hsum hr)
      exact ih.trans (and_iff_right hr).symm
    · rw [hc]
      have hle := contributing_collectAll_le later { r with nodes := r.nodes + 1 }
      refine iff_of_false ?_ ?_
      · rw [hvalue]
        simp only [Bool.toNat_true] at hle ⊢
        omega
      · rintro ⟨-, hlater⟩
        exact hsum hlater.here

theorem contributing_ofReplies_eq_iff (replies : List Reply) :
    (ofReplies replies).contributing = replies.countP Reply.isValue ↔
      Passes 0 (replies.map Reply.pair) := by
  have h := contributing_collectAll_eq_iff replies (r := .empty) ⟨fits_zero, fits_zero⟩
  simpa [ofReplies, empty] using h

/-- The result of a row of replies of which none is left out: that of the exact sums. -/
def whole (replies : List Reply) : Except ReduceError GlobalAverage :=
  if (replies.map (·.pair.count)).sum = 0 then
    .error (.noData replies.length (replies.countP Reply.isUnreachable))
  else .ok {
    average := Float.ofInt (replies.map (·.pair.total)).sum /
      Float.ofInt (replies.map (·.pair.count)).sum
    total := (replies.map (·.pair.total)).sum
    count := (replies.map (·.pair.count)).sum
    contributing := replies.countP Reply.isValue
    unreachable := replies.countP Reply.isUnreachable }

theorem whole_perm {replies' : List Reply} (hp : replies'.Perm replies) :
    whole replies' = whole replies := by
  have hsum : ∀ f : Reply → Int, (replies'.map f).sum = (replies.map f).sum := fun f =>
    (hp.map f).sum_eq
  simp only [whole, hsum, hp.length_eq, hp.countP_eq]

theorem result_of_passes (h : Passes 0 (replies.map Reply.pair)) :
    (ofReplies replies).result = whole replies := by
  rw [ofReplies, collectAll_of_passes (r := .empty) h, result_eq]
  simp only [whole, empty, zero_add, Snapshot.total_sum, Snapshot.count_sum, List.map_map]
  rfl

end Reduction

namespace ReduceCounters

/-- The order of the replies. In one order, all values are taken in exactly if no sum on the way
    leaves the range, and then the result is that of the exact sums, which no order changes. In every
    order they are exactly if the replies are balanced. -/
theorem reduce_perm (rc : ReduceCounters) (replies : List Reply) :
    (∀ replies' : List Reply, replies'.Perm replies →
      ((Reduction.ofReplies replies').contributing = replies.countP Reply.isValue ↔
        ∀ first, first <+: replies'.map Reply.pair → first.sum.InRange) ∧
      ((Reduction.ofReplies replies').contributing = replies.countP Reply.isValue →
        (rc.reduce replies').1 = Reduction.whole replies)) ∧
    ((∀ replies' : List Reply, replies'.Perm replies →
      (Reduction.ofReplies replies').contributing = replies.countP Reply.isValue) ↔
        Reduction.Balanced replies) := by
  have hiff : ∀ replies' : List Reply, replies'.Perm replies →
      ((Reduction.ofReplies replies').contributing = replies.countP Reply.isValue ↔
        Reduction.Passes 0 (replies'.map Reply.pair)) := by
    intro replies' hp
    rw [← hp.countP_eq]
    exact Reduction.contributing_ofReplies_eq_iff replies'
  refine ⟨?_, ?_⟩
  · intro replies' hp
    refine ⟨?_, ?_⟩
    · rw [hiff replies' hp]
      simp only [Reduction.Passes, zero_add]
    · intro hall
      exact (Reduction.result_of_passes ((hiff replies' hp).1 hall)).trans (Reduction.whole_perm hp)
  · rw [← Reduction.forall_passes_iff]
    constructor
    · intro h replies' hp
      exact (hiff replies' hp).1 (h replies' hp)
    · intro h replies' hp
      exact (hiff replies' hp).2 (h replies' hp)

/-- In this order no sum leaves the range. With the last reply first one does, and its value is left
    out. -/
theorem reduce_perm_of_five :
    (zero.reduce [.value 7 ⟨greatest, 1⟩, .absent 3, .value 2 ⟨-5, 2⟩, .unreachable 4 "partitioned",
      .value 7 ⟨5, 1⟩]).1 = .ok ⟨Float.ofInt greatest / Float.ofInt 4, greatest, 4, 3, 1⟩ ∧
    (Reduction.ofReplies [.value 7 ⟨5, 1⟩, .value 7 ⟨greatest, 1⟩, .absent 3, .value 2 ⟨-5, 2⟩,
      .unreachable 4 "partitioned"]).contributing ≠ 3 := by
  refine ⟨?_, ?_⟩
  · exact (((zero.reduce_perm _).1 _ (List.Perm.refl _)).2 (by decide)).trans (if_neg (by decide))
  · intro h
    have hsums := ((zero.reduce_perm [.value 7 ⟨greatest, 1⟩, .absent 3, .value 2 ⟨-5, 2⟩,
      .unreachable 4 "partitioned", .value 7 ⟨5, 1⟩]).1 _ (by decide)).1.1 h
    exact absurd (hsums [⟨5, 1⟩, ⟨greatest, 1⟩] (by decide)) (by decide)

/-- Three values whose sum is in range, in two orders: two results. -/
theorem reduce_swapped :
    [Reply.value 0 ⟨greatest, 1⟩, .value 1 ⟨1, 1⟩, .value 2 ⟨-1, 1⟩].Perm
      [.value 0 ⟨greatest, 1⟩, .value 2 ⟨-1, 1⟩, .value 1 ⟨1, 1⟩] ∧
    ([⟨greatest, 1⟩, ⟨1, 1⟩, ⟨-1, 1⟩] : List Snapshot).sum.InRange ∧
    (zero.reduce [.value 0 ⟨greatest, 1⟩, .value 1 ⟨1, 1⟩, .value 2 ⟨-1, 1⟩]).1.toOption.map
      (fun g => (g.total, g.count, g.contributing)) = some (greatest - 1, 2, 2) ∧
    (zero.reduce [.value 0 ⟨greatest, 1⟩, .value 2 ⟨-1, 1⟩, .value 1 ⟨1, 1⟩]).1.toOption.map
      (fun g => (g.total, g.count, g.contributing)) = some (greatest, 3, 3) := by
  refine ⟨by decide, by decide, by decide, by decide⟩

end ReduceCounters

end WindowedMean
