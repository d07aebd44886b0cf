import WindowedMean.Proofs.Weights
import WindowedMean.Reduction

/-! The fold of a row of replies, where none of them has to be left out.

    A reply is left out only if it would take the sum out of range. If no sum on the way leaves the
    range, the row *passes*, and the fold is three sums: of the pairs, of the values, of the
    unreachable. If even the absolute values of all totals, and those of all counts, add up to
    something in range, there is *room* for every reply in every order. -/

namespace WindowedMean

namespace Reply

/-- What a reply adds, if it is not left out. -/
def pair : Reply → Snapshot
  | .value _ s => s
  | _ => 0

/-- The reply is a value. -/
def isValue : Reply → Bool
  | .value _ _ => true
  | _ => false

/-- The reply says that there is none. -/
def isUnreachable : Reply → Bool
  | .unreachable _ _ => true
  | _ => false

end Reply

namespace Reduction
variable {r : Reduction} {reply : Reply}

/-- The fold with one more reply in it. -/
def plus (r : Reduction) (reply : Reply) : Reduction where
  sum := r.sum + reply.pair
  nodes := r.nodes + 1
  contributing := r.contributing + reply.isValue.toNat
  unreachable := r.unreachable + reply.isUnreachable.toNat

theorem pair_of_not_value (h : reply.isValue = false) : reply.pair = 0 := by
  cases reply with
  | value n s => cases h
  | absent n => rfl
  | unreachable n reason => rfl

/-- Only values are added, so whatever else comes is counted and never left out. -/
theorem collect_of_not_value (h : reply.isValue = false) :
    r.collect reply = (true, r.plus reply) := by
  have hsum : r.sum = r.sum + reply.pair := by rw [pair_of_not_value h, add_zero]
  cases reply with
  | value n s => cases h
  | absent n => exact congrArg (Prod.mk true) (Reduction.ext hsum rfl rfl rfl)
  | unreachable n reason => exact congrArg (Prod.mk true) (Reduction.ext hsum rfl rfl rfl)

theorem collect_of_inRange (h : (r.sum + reply.pair).InRange) :
    r.collect reply = (true, r.plus reply) := by
  cases reply with
  | value n s =>
    have hs : r.sum.add s = .ok (r.sum + s) := Snapshot.add_eq_ok_iff.2 ⟨h, rfl⟩
    rw [collect]
    simp only [hs]
    rfl
  | absent n => exact collect_of_not_value rfl
  | unreachable n reason => exact collect_of_not_value rfl

/-- No sum of `s` and the first few of `ss` leaves the range. -/
def Passes (s : Snapshot) (ss : List Snapshot) : Prop :=
  ∀ first, first <+: ss → (s + first.sum).InRange

theorem Passes.here {s : Snapshot} {ss : List Snapshot} (h : Passes s ss) : s.InRange := by
  have hs := h [] (List.nil_prefix)
  rwa [List.sum_nil, add_zero] at hs

theorem passes_cons {s d : Snapshot} {ss : List Snapshot} :
    Passes s (d :: ss) ↔ s.InRange ∧ Passes (s + d) ss := by
  constructor
  · intro h
    refine ⟨h.here, ?_⟩
    intro first hfirst
    have hs := h (d :: first) (List.cons_prefix_cons.2 ⟨rfl, hfirst⟩)
    rwa [List.sum_cons, ← add_assoc] at hs
  · rintro ⟨hs, h⟩ first hfirst
    rcases List.prefix_cons_iff.1 hfirst with rfl | ⟨more, rfl, hmore⟩
    · rwa [List.sum_nil, add_zero]
    · rw [List.sum_cons, ← add_assoc]
      exact h more hmore

theorem countP_cons_toNat (p : Reply → Bool) (n : Nat) (reply : Reply) (later : List Reply) :
    n + (p reply).toNat + later.countP p = n + (reply :: later).countP p := by
  rw [List.countP_cons]
  cases p reply with
  | true => exact Nat.add_right_comm n 1 _
  | false => rfl

/-- If a row of replies passes, all are taken in. -/
theorem collectAll_of_passes {replies : List Reply} (h : Passes r.sum (replies.map Reply.pair)) :
    r.collectAll replies = ⟨r.sum + (replies.map Reply.pair).sum, r.nodes + replies.length,
      r.contributing + replies.countP Reply.isValue,
      r.unreachable + replies.countP Reply.isUnreachable⟩ := by
  induction replies generalizing r with
  | nil => exact Reduction.ext (add_zero r.sum).symm rfl rfl rfl
  | cons reply later ih =>
    obtain ⟨-, hlater⟩ := passes_cons.1 h
    rw [collectAll, collect_of_inRange hlater.here]
    refine (ih (r := r.plus reply) hlater).trans (Reduction.ext ?_ ?_ ?_ ?_)
    · rw [List.map_cons, List.sum_cons, ← add_assoc]
      rfl
    · exact Nat.add_right_comm r.nodes 1 later.length
    · exact countP_cons_toNat Reply.isValue ..
    · exact countP_cons_toNat Reply.isUnreachable ..

/-- Whatever is added to `s` out of `ss`, in any order, stays in range. -/
def Room (s : Snapshot) (ss : List Snapshot) : Prop :=
  ((s.total.natAbs + weight (ss.map (·.total)) : Nat) : Int) ≤ greatest ∧
    ((s.count.natAbs + weight (ss.map (·.count)) : Nat) : Int) ≤ greatest

theorem Room.tail {s d : Snapshot} {ss : List Snapshot} (h : Room s (d :: ss)) :
    Room (s + d) ss := by
  have ht := Int.natAbs_add_le s.total d.total
  have hc := Int.natAbs_add_le s.count d.count
  refine ⟨Int.le_trans (Int.ofNat_le.2 ?_) h.1, Int.le_trans (Int.ofNat_le.2 ?_) h.2⟩
  · rw [Snapshot.total_add, List.map_cons, weight_cons]
    omega
  · rw [Snapshot.count_add, List.map_cons, weight_cons]
    omega

theorem Room.passes : ∀ {ss : List Snapshot} {s : Snapshot}, Room s ss → Passes s ss
  | [], s, h => by
    intro first hfirst
    rw [List.prefix_nil.1 hfirst, List.sum_nil, add_zero]
    exact ⟨fits_of_natAbs_le (Nat.le_refl _) h.1, fits_of_natAbs_le (Nat.le_refl _) h.2⟩
  | d :: ss, s, h =>
    passes_cons.2 ⟨⟨fits_of_natAbs_le (Nat.le_add_right ..) h.1,
      fits_of_natAbs_le (Nat.le_add_right ..) h.2⟩, h.tail.passes⟩

theorem Room.sum_inRange {ss : List Snapshot} (h : Room 0 ss) : ss.sum.InRange := by
  have hs := h.passes ss (List.prefix_refl ss)
  rwa [zero_add] at hs

theorem room_append {ss ds : List Snapshot} : Room 0 (ss ++ ds) → Room 0 ss ∧ Room 0 ds := by
  simp only [Room, List.map_append, weight_append, Snapshot.total_zero, Snapshot.count_zero]
  omega

theorem Room.perm {s : Snapshot} {ss ds : List Snapshot} (h : Room s ss) (hp : ds.Perm ss) :
    Room s ds := by
  have hw : ∀ f : Snapshot → Int, weight (ds.map f) = weight (ss.map f) := fun f =>
    ((hp.map f).map Int.natAbs).sum_eq
  rwa [Room, hw, hw]

theorem result_eq (r : Reduction) :
    r.result = if r.sum.count = 0 then .error (.noData r.nodes r.unreachable)
      else .ok ⟨Float.ofInt r.sum.total / Float.ofInt r.sum.count, r.sum.total, r.sum.count,
        r.contributing, r.unreachable⟩ := by
  rw [result, Snapshot.average]
  by_cases h : r.sum.count = 0
  · rw [if_pos h, if_pos h]
  · rw [if_neg h, if_neg h]

end Reduction

end WindowedMean
