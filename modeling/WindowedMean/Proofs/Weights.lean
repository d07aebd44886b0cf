import WindowedMean.Proofs.Folding

/-! Batches that no window can refuse.

    The *weight* of a list of events is the sum of their absolute values. It bounds the sum of every
    part of the list, and more: what a batch brings into a window less what it pushes out is a sum
    over two parts that do not overlap.

        residents ++ batch  =  displaced ++ residents after

    If the cut falls into the residents, the change is the batch less what was displaced; if it falls
    into the batch, the change is what is left of the batch less the residents. In a *light* list,
    therefore, neither states nor changes can leave the range. -/

namespace WindowedMean

/-- The absolute values of a list of events, added up. -/
def weight (vs : List Int) : Nat := (vs.map Int.natAbs).sum

theorem weight_cons (v : Int) (vs : List Int) : weight (v :: vs) = v.natAbs + weight vs := rfl

theorem weight_append (vs ws : List Int) : weight (vs ++ ws) = weight vs + weight ws := by
  rw [weight, List.map_append, List.sum_append]
  rfl

theorem natAbs_sum_le_weight (vs : List Int) : vs.sum.natAbs ≤ weight vs := by
  induction vs with
  | nil => exact Nat.le_refl 0
  | cons v vs ih =>
    have hv := Int.natAbs_add_le v vs.sum
    rw [List.sum_cons, weight_cons]
    omega

theorem fits_of_natAbs_le {n : Int} {k : Nat} (hn : n.natAbs ≤ k) (hk : (k : Int) ≤ greatest) :
    Fits n := by
  simp only [Fits, least, greatest] at hk ⊢
  omega

/-- Neither the weight nor the number of the events leaves the range. -/
def Light (vs : List Int) : Prop := (weight vs : Int) ≤ greatest ∧ (vs.length : Int) ≤ greatest

instance (vs : List Int) : Decidable (Light vs) :=
  inferInstanceAs (Decidable ((weight vs : Int) ≤ greatest ∧ (vs.length : Int) ≤ greatest))

theorem Light.left {vs ws : List Int} (h : Light (vs ++ ws)) : Light vs := by
  simp only [Light, weight_append, List.length_append] at h ⊢
  omega

theorem Light.right {vs ws : List Int} (h : Light (vs ++ ws)) : Light ws := by
  simp only [Light, weight_append, List.length_append] at h ⊢
  omega

theorem Light.inRange {vs : List Int} (h : Light vs) : (Snapshot.ofEvents vs).InRange :=
  ⟨fits_of_natAbs_le (natAbs_sum_le_weight vs) h.1, fits_of_natAbs_le (Nat.le_refl _) h.2⟩

namespace Window

/-- The change of a batch is a difference over two parts that do not overlap. -/
theorem natAbs_change_total_le (w : Window) (vs : List Int) :
    (w.change vs).total.natAbs ≤ weight (w.residents ++ vs) := by
  have hcut := w.displaced_append_residents vs
  generalize hl : (w.extend vs).residents = kept at hcut
  change ((w.extend vs).residents.sum - w.residents.sum).natAbs ≤ _
  rw [hl]
  rcases List.append_eq_append_iff.1 hcut with ⟨c, hc, hk⟩ | ⟨c, hc, hv⟩
  · -- residents = displaced ++ c and kept = c ++ vs
    have hd := natAbs_sum_le_weight (w.displaced vs)
    have hvs := natAbs_sum_le_weight vs
    rw [hc, hk]
    simp only [List.sum_append, weight_append]
    omega
  · -- displaced = residents ++ c and vs = c ++ kept
    have hr := natAbs_sum_le_weight w.residents
    have hkept := natAbs_sum_le_weight kept
    rw [hv]
    simp only [weight_append]
    omega

theorem natAbs_change_count_le (w : Window) (vs : List Int) :
    (w.change vs).count.natAbs ≤ (w.residents ++ vs).length := by
  have hcut := congrArg List.length (w.displaced_append_residents vs)
  change (((w.extend vs).residents.length : Int) - w.residents.length).natAbs ≤ _
  simp only [List.length_append] at hcut ⊢
  omega

/-- Where residents and batch are light, the batch is taken. -/
theorem admits_of_light (w : Window) (vs : List Int) (h : Light (w.residents ++ vs)) :
    w.Admits (Snapshot.ofEvents w.residents) vs := by
  refine ⟨⟨fits_of_natAbs_le (w.natAbs_change_total_le vs) h.1,
    fits_of_natAbs_le (w.natAbs_change_count_le vs) h.2⟩, ?_⟩
  rw [change, add_sub_cancel]
  rw [← w.displaced_append_residents vs] at h
  exact h.right.inRange

end Window

end WindowedMean
