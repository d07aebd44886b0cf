import WindowedMean.Proofs.Bindings
import WindowedMean.Proofs.Merging

/-! Snapshots combined into one accumulator, in any order and any grouping.

    A *combination* is one way of doing it: a tree that starts from new accumulators, adds snapshots
    to them and merges them, until there is one left.

                     merge
                    /     \
              add (4, 2)   merge of a copy
                  |          /        \
                fresh   add (7, 1)   holding (-3, 1)
                            |
                          fresh

    Each addition is checked, so of two ways to combine the same snapshots one may be refused: that
    of `greatest`, `1` and `-1` in this order is, and with `-1` first it is not. But whichever way
    comes to its end has the exact sum. If the absolute values of all totals, and those of all
    counts, add up to something in range, every way comes to its end: what is added up on the way is
    always a sum of some of the snapshots. -/

namespace WindowedMean

open Reduction (Room)

/-- A way of combining snapshots into one accumulator. -/
inductive Combination where
  /-- A new accumulator. -/
  | fresh
  /-- A new accumulator that holds a snapshot from the start. -/
  | holding (s : Snapshot)
  | add (into : Combination) (s : Snapshot)
  /-- Both are combined, then the source is merged into the target. -/
  | merge (target source : Combination)
  /-- The source is combined and its state copied. The copy is merged once there is a target. -/
  | mergeCopy (target source : Combination)
  deriving DecidableEq, Repr

namespace Combination

/-- The snapshots that are combined. -/
def leaves : Combination → List Snapshot
  | fresh => []
  | holding s => [s]
  | add into s => into.leaves ++ [s]
  | merge target source => target.leaves ++ source.leaves
  | mergeCopy target source => target.leaves ++ source.leaves

/-- Combines them in a table where other accumulators may be; the first step that is refused ends
    it. -/
def build : Combination → Accumulators → Except AverageError (Handle × Accumulators)
  | fresh, t => .ok (t.make 0)
  | holding s, t => .ok (t.make s)
  | add into s, t => do
    let (h, t) ← into.build t
    let t ← t.add h s
    return (h, t)
  | merge target source, t => do
    let (h, t) ← target.build t
    let (k, t) ← source.build t
    let t ← t.merge h k
    return (h, t)
  | mergeCopy target source, t => do
    let (k, t) ← source.build t
    let copy := t.state k
    let (h, t) ← target.build t
    let t ← t.add h copy
    return (h, t)

/-- From one table to another a new accumulator with this state has come in. What was there before
    has not changed. -/
structure Brings (t : Accumulators) (s : Snapshot) (h : Handle) (t' : Accumulators) : Prop where
  new : ¬ t.Has h
  has : t'.Has h
  state_eq : t'.state h = s
  keeps : ∀ k, t.Has k → t'.Has k ∧ t'.state k = t.state k

variable {t t₁ t₂ : Accumulators} {s d : Snapshot} {h k : Handle}

theorem brings_make (t : Accumulators) (s : Snapshot) : Brings t s (t.make s).1 (t.make s).2 where
  new := Nat.lt_irrefl _
  has := t.has_make_self s
  state_eq := t.state_make_self s
  keeps := fun _ hk => ⟨Accumulators.has_make hk s, Accumulators.state_make_of_has hk s⟩

theorem Brings.set (hb : Brings t s h t₁) (d : Snapshot) : Brings t d h (t₁.set h d) where
  new := hb.new
  has := Accumulators.has_set hb.has h d
  state_eq := Accumulators.state_set_self hb.has d
  keeps := by
    intro k hk
    obtain ⟨hhas, hstate⟩ := hb.keeps k hk
    have hne : h ≠ k := by
      rintro rfl
      exact hb.new hk
    exact ⟨Accumulators.has_set hhas h d, (Accumulators.state_set_of_ne hne d).trans hstate⟩

/-- Another one has come in since. -/
theorem Brings.followed (hb : Brings t s h t₁) (hb' : Brings t₁ d k t₂) : Brings t s h t₂ where
  new := hb.new
  has := (hb'.keeps h hb.has).1
  state_eq := (hb'.keeps h hb.has).2.trans hb.state_eq
  keeps := by
    intro k hk
    obtain ⟨hhas, hstate⟩ := hb.keeps k hk
    exact ⟨(hb'.keeps k hhas).1, (hb'.keeps k hhas).2.trans hstate⟩

/-- Another one had come in before. -/
theorem Brings.preceded (hb : Brings t s h t₁) (hb' : Brings t₁ d k t₂) : Brings t d k t₂ where
  new := fun hk => hb'.new (hb.keeps k hk).1
  has := hb'.has
  state_eq := hb'.state_eq
  keeps := (hb.followed hb').keeps

/-- How it can end to combine snapshots: with their sum, or with a step that is refused, which takes
    that there is not room for all of them. -/
inductive Ends (t : Accumulators) (ss : List Snapshot) :
    Except AverageError (Handle × Accumulators) → Prop where
  | combined {h : Handle} {t' : Accumulators} (hb : Brings t ss.sum h t') : Ends t ss (.ok (h, t'))
  | refused (hroom : ¬ Room 0 ss) : Ends t ss (.error .overflow)

/-- What is added to the sum of some snapshots is the sum of others. -/
theorem Brings.ends_add {ss : List Snapshot} (hb : Brings t ss.sum h t₁) (ds : List Snapshot) :
    Ends t (ss ++ ds) ((t₁.add h ds.sum).map fun t' => (h, t')) := by
  have hsum : t₁.state h + ds.sum = (ss ++ ds).sum := by rw [hb.state_eq, List.sum_append]
  by_cases hd : (t₁.state h + ds.sum).InRange
  · rw [Accumulators.add_of_inRange hd, hsum]
    exact .combined (hb.set _)
  · rw [Accumulators.add_of_not_inRange hd]
    refine .refused fun hroom => hd ?_
    rw [hsum]
    exact hroom.sum_inRange

/-- One part is combined first. What comes after only matters if no step of it is refused. -/
theorem Ends.bind {ss ds : List Snapshot} {r : Except AverageError (Handle × Accumulators)}
    {f : Handle × Accumulators → Except AverageError (Handle × Accumulators)} (hr : Ends t₁ ss r)
    (hpart : Room 0 ds → Room 0 ss) (hf : ∀ h t₂, Brings t₁ ss.sum h t₂ → Ends t ds (f (h, t₂))) :
    Ends t ds (r >>= f) := by
  cases hr with
  | combined hb => exact hf _ _ hb
  | refused hroom => exact .refused fun hall => hroom (hpart hall)

theorem ends_build (c : Combination) (t : Accumulators) : Ends t c.leaves (c.build t) := by
  induction c generalizing t with
  | fresh => exact .combined (brings_make t 0)
  | holding s =>
    refine .combined ?_
    rw [leaves, List.sum_singleton]
    exact brings_make t s
  | add into s ih =>
    refine (ih t).bind (fun hall => (Reduction.room_append hall).1) ?_
    intro h t₁ hb
    have hadd := hb.ends_add [s]
    rw [List.sum_singleton] at hadd
    exact hadd
  | merge target source iht ihs =>
    refine (iht t).bind (fun hall => (Reduction.room_append hall).1) ?_
    intro h t₁ hb
    refine (ihs t₁).bind (fun hall => (Reduction.room_append hall).2) ?_
    intro k t₂ hk
    have hadd := (hb.followed hk).ends_add source.leaves
    rw [← hk.state_eq] at hadd
    exact hadd
  | mergeCopy target source iht ihs =>
    refine (ihs t).bind (fun hall => (Reduction.room_append hall).2) ?_
    intro k t₁ hk
    refine (iht t₁).bind (fun hall => (Reduction.room_append hall).1) ?_
    intro h t₂ hb
    have hadd := (hk.preceded hb).ends_add source.leaves
    rw [← hk.state_eq] at hadd
    exact hadd

theorem state_of_build {c : Combination} {t' : Accumulators} (hc : c.build t = .ok (h, t')) :
    t'.state h = c.leaves.sum := by
  have hends := c.ends_build t
  rw [hc] at hends
  cases hends with
  | combined hb => exact hb.state_eq

/-- With room for all leaves, no step is refused. -/
theorem build_of_room {c : Combination} (hroom : Room 0 c.leaves) (t : Accumulators) :
    ∃ h t', c.build t = .ok (h, t') := by
  have hends := c.ends_build t
  generalize c.build t = r at hends
  cases hends with
  | combined hb => exact ⟨_, _, rfl⟩
  | refused hfull => exact absurd hroom hfull

/-- Order and grouping make no difference: all ways of combining some snapshots that come to their
    end have the exact sums of totals and counts. If the absolute values of the totals, and those of
    the counts, add up to something in range, all ways come to their end. -/
theorem build_perm (ss : List Snapshot) :
    (∀ c c' : Combination, c.leaves.Perm ss → c'.leaves.Perm ss → ∀ t t' u u' h h',
      c.build t = .ok (h, u) → c'.build t' = .ok (h', u') →
        u.state h = u'.state h' ∧
          u.state h = ⟨(ss.map (·.total)).sum, (ss.map (·.count)).sum⟩) ∧
    ((weight (ss.map (·.total)) : Int) ≤ greatest → (weight (ss.map (·.count)) : Int) ≤ greatest →
      ∀ c : Combination, c.leaves.Perm ss → ∀ t, ∃ h u, c.build t = .ok (h, u)) := by
  have hsum : ss.sum = ⟨(ss.map (·.total)).sum, (ss.map (·.count)).sum⟩ :=
    Snapshot.ext (Snapshot.total_sum ss) (Snapshot.count_sum ss)
  refine ⟨?_, ?_⟩
  · intro c c' hp hp' t t' u u' h h' hc hc'
    rw [state_of_build hc, state_of_build hc', hp.sum_eq, hp'.sum_eq]
    exact ⟨rfl, hsum⟩
  · intro ht hc c hp t
    have hroom : Room 0 ss := by simpa [Room] using ⟨ht, hc⟩
    exact build_of_room (hroom.perm hp) t

/-- The same four snapshots merged in pairs and one after the other. Of three that there is no room
    for, one order comes to its end and the other does not. -/
theorem build_perm_of_pairs :
    let pairs :=
      merge (add (holding ⟨5, 1⟩) ⟨-3, 1⟩) (mergeCopy (holding ⟨4, 2⟩) (add fresh ⟨7, 1⟩))
    let row := add (add (add (add fresh ⟨7, 1⟩) ⟨-3, 1⟩) ⟨4, 2⟩) ⟨5, 1⟩
    (∃ h h' u u', pairs.build .none = .ok (h, u) ∧ row.build .none = .ok (h', u') ∧
      u.state h = ⟨13, 5⟩ ∧ u'.state h' = ⟨13, 5⟩) ∧
    (add (add (add fresh ⟨greatest, 1⟩) ⟨-1, 1⟩) ⟨1, 1⟩).build .none =
      .ok (⟨0⟩, ⟨[⟨greatest, 3⟩]⟩) ∧
    (add (add (add fresh ⟨greatest, 1⟩) ⟨1, 1⟩) ⟨-1, 1⟩).build .none = .error .overflow := by
  intro pairs row
  refine ⟨?_, by rfl, by rfl⟩
  have hall := build_perm row.leaves
  obtain ⟨h, u, hu⟩ := hall.2 (by decide) (by decide) pairs (by decide) .none
  obtain ⟨h', u', hu'⟩ := hall.2 (by decide) (by decide) row (List.Perm.refl _) .none
  obtain ⟨heq, hsum⟩ := hall.1 pairs row (by decide) (List.Perm.refl _) _ _ _ _ _ _ hu hu'
  exact ⟨h, h', u, u', hu, hu', hsum, heq ▸ hsum⟩

end Combination

end WindowedMean
