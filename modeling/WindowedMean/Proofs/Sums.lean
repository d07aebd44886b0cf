import Mathlib.Algebra.BigOperators.Group.List.Basic
import Mathlib.Tactic.Abel
import WindowedMean.Proofs.Recency
import WindowedMean.Tracker

/-! Snapshots add up like integers, field by field, and so do the snapshots of lists of events.

    The one fact about windows is `exactChange_displaced`: the exact change of a batch is what the
    window holds afterwards less what it held before. Members of the batch that the batch itself
    displaces are counted once on either side and drop out. -/

namespace WindowedMean

namespace Snapshot

instance : Neg Snapshot := ⟨fun s => ⟨-s.total, -s.count⟩⟩

instance : AddCommGroup Snapshot where
  add_assoc r s t := Snapshot.ext (Int.add_assoc ..) (Int.add_assoc ..)
  zero_add s := Snapshot.ext (Int.zero_add _) (Int.zero_add _)
  add_zero s := Snapshot.ext (Int.add_zero _) (Int.add_zero _)
  add_comm s t := Snapshot.ext (Int.add_comm ..) (Int.add_comm ..)
  neg_add_cancel s := Snapshot.ext (Int.add_left_neg _) (Int.add_left_neg _)
  sub_eq_add_neg s t := Snapshot.ext Int.sub_eq_add_neg Int.sub_eq_add_neg
  nsmul := nsmulRec
  zsmul := zsmulRec

theorem total_sum : ∀ ss : List Snapshot, ss.sum.total = (ss.map (·.total)).sum
  | [] => rfl
  | s :: ss => by
    rw [List.sum_cons, total_add, total_sum ss, List.map_cons, List.sum_cons]

theorem count_sum : ∀ ss : List Snapshot, ss.sum.count = (ss.map (·.count)).sum
  | [] => rfl
  | s :: ss => by
    rw [List.sum_cons, count_add, count_sum ss, List.map_cons, List.sum_cons]

@[simp] theorem ofEvents_nil : ofEvents [] = 0 := rfl

theorem ofEvents_append (vs ws : List Int) : ofEvents (vs ++ ws) = ofEvents vs + ofEvents ws := by
  refine Snapshot.ext List.sum_append ?_
  simp only [ofEvents, List.length_append, count_add]
  omega

end Snapshot

/-- A batch changes the exact sum and number of the residents by its exact change. -/
theorem exactChange_displaced (w : Window) (vs : List Int) :
    exactChange vs (w.displaced vs) =
      Snapshot.ofEvents (w.extend vs).residents - Snapshot.ofEvents w.residents := by
  have h := congrArg Snapshot.ofEvents (w.displaced_append_residents vs)
  rw [Snapshot.ofEvents_append, Snapshot.ofEvents_append] at h
  rw [exactChange, sub_eq_sub_iff_add_eq_add, add_comm, ← h, add_comm]

/-- The net change is the exact change, where that is in range. -/
theorem netChange_eq (added evicted : List Int) :
    netChange added evicted =
      if (exactChange added evicted).InRange then some (exactChange added evicted) else none := by
  unfold netChange narrow Snapshot.InRange
  by_cases ht : Fits (exactChange added evicted).total <;>
    by_cases hc : Fits (exactChange added evicted).count <;> simp [ht, hc]

end WindowedMean
