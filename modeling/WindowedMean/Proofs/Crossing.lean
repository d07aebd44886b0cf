import Mathlib.Data.List.Induction
import Mathlib.Logic.Function.Basic
import WindowedMean.Proofs.Bindings

/-! Callers who add to accumulators and merge them, all at the same time.

    Adding is a single step. Merging is two: first the source is copied, then the copy is added to
    the target. In between others take their steps, and the source may change. It may be the target
    of a merge itself, of one that comes back to it or even of its own:

        a ← b     copy b ┈┈┈┈┈┈┈┈┈┈┈┈┈┈┈┈┈┈┈┈┈▶ add to a
        b ← a            copy a ┈┈▶ add to b
        a ← a                                             copy a ┈┈▶ add to a

    Whatever the order of the steps, no addition is lost, and what a merge adds is a pair that its
    source has held (`nothing_lost`). -/

namespace WindowedMean

/-- Where a caller is: between two calls, or inside of a merge, with a copy of the source. -/
inductive Merger where
  | free
  | holding (target source : Handle) (copy : Snapshot)
  deriving DecidableEq, Repr

/-- What a caller does next: it adds, or it begins to merge and goes on with it. -/
inductive Stroke where
  | add (h : Handle) (d : Snapshot)
  | copy (target source : Handle)
  | proceed
  deriving DecidableEq, Repr

namespace Merger

/-- The pair that a stroke adds and the accumulator that it is added to, if the stroke adds one. -/
def adds : Merger → Stroke → Option (Handle × Snapshot)
  | free, .add h d => some (h, d)
  | holding target _ copy, .proceed => some (target, copy)
  | _, _ => none

/-- Where the caller is after a stroke. One that it cannot do where it is leaves it there. -/
def next (t : Accumulators) : Merger → Stroke → Merger
  | free, .copy target source => holding target source (t.state source)
  | holding _ _ _, .proceed => free
  | who, _ => who

end Merger

/-- A pair that somebody tried to add, and what became of it. -/
structure Addition where
  target : Handle
  pair : Snapshot
  result : Except AverageError Unit
  deriving DecidableEq, Repr

/-- Accumulators, and where each caller is. -/
structure Crossing where
  accumulators : Accumulators
  callers : Nat → Merger

namespace Crossing

/-- Nobody has begun. -/
def start (t : Accumulators) : Crossing := ⟨t, fun _ => .free⟩

/-- Where the callers are after a stroke of one of them. -/
def move (x : Crossing) (c : Nat) (a : Stroke) : Nat → Merger :=
  Function.update x.callers c ((x.callers c).next x.accumulators a)

/-- One stroke of one caller. -/
def step (x : Crossing) (c : Nat) (a : Stroke) : Option Addition × Crossing :=
  match (x.callers c).adds a with
  | none => (none, ⟨x.accumulators, x.move c a⟩)
  | some (target, pair) =>
    match x.accumulators.add target pair with
    | .ok t => (some ⟨target, pair, .ok ()⟩, ⟨t, x.move c a⟩)
    | .error e => (some ⟨target, pair, .error e⟩, ⟨x.accumulators, x.move c a⟩)

/-- A row of strokes, each of one of the callers. -/
def run (x : Crossing) : List (Nat × Stroke) → List Addition × Crossing
  | [] => ([], x)
  | (c, a) :: acts =>
    let (tried, x') := x.step c a
    let (later, x'') := x'.run acts
    (tried.toList ++ later, x'')

/-- All pairs that somebody tried to add. -/
def additions (t : Accumulators) (acts : List (Nat × Stroke)) : List Addition :=
  ((start t).run acts).1

/-- Where a row of strokes leads to. -/
def after (t : Accumulators) (acts : List (Nat × Stroke)) : Crossing := ((start t).run acts).2

/-- What was added to an accumulator. -/
def gains (h : Handle) (tried : List Addition) : List Snapshot :=
  tried.filterMap fun
    | ⟨target, pair, .ok ()⟩ => if target = h then some pair else none
    | _ => none

/-- What holds after a row of strokes, and of the next one. -/
structure NothingLost (t : Accumulators) (acts : List (Nat × Stroke)) : Prop where
  /-- An accumulator holds what it held at first and all that was added to it, by whatever step. -/
  state_eq : ∀ h, t.Has h → (after t acts).accumulators.state h =
    t.state h + (gains h (additions t acts)).sum
  inRange : ∀ h, t.Has h → ((after t acts).accumulators.state h).InRange
  /-- What a merge is about to add was all of its source's state when the merge began. -/
  copied : ∀ c target source copy, (after t acts).callers c = .holding target source copy →
    ∃ first between, acts = first ++ (c, .copy target source) :: between ∧
      (after t first).callers c = .free ∧ (after t first).accumulators.state source = copy ∧
      (c, .proceed) ∉ between
  /-- A pair is added as a whole, or it would take its target out of range and nothing changes. -/
  adds : ∀ c a target pair, ((after t acts).callers c).adds a = some (target, pair) → t.Has target →
    (((after t acts).accumulators.state target + pair).InRange ∧
      ((after t acts).step c a).1 = some ⟨target, pair, .ok ()⟩ ∧
      ((after t acts).step c a).2.accumulators.state target =
        (after t acts).accumulators.state target + pair) ∨
    (¬ ((after t acts).accumulators.state target + pair).InRange ∧
      ((after t acts).step c a).1 = some ⟨target, pair, .error .overflow⟩ ∧
      ((after t acts).step c a).2.accumulators = (after t acts).accumulators)
  /-- No other accumulator is changed. -/
  others : ∀ c a h, (∀ pair, ((after t acts).callers c).adds a ≠ some (h, pair)) →
    ((after t acts).step c a).2.accumulators.state h = (after t acts).accumulators.state h
  /-- With nobody in between, the two steps of a merge are `merge`. -/
  alone : ∀ c target source, (after t acts).callers c = .free →
    (after t acts).run [(c, .copy target source), (c, .proceed)] =
      match (after t acts).accumulators.merge target source with
      | .ok t' => ([⟨target, (after t acts).accumulators.state source, .ok ()⟩],
          ⟨t', (after t acts).callers⟩)
      | .error e => ([⟨target, (after t acts).accumulators.state source, .error e⟩], after t acts)

variable {t : Accumulators} {x : Crossing} {c : Nat} {a : Stroke} {h target source : Handle}
  {pair : Snapshot} {acts : List (Nat × Stroke)}

/-! ### One stroke -/

theorem step_of_adds_none (ha : (x.callers c).adds a = none) :
    x.step c a = (none, ⟨x.accumulators, x.move c a⟩) := by
  rw [step, ha]

theorem step_of_inRange (ha : (x.callers c).adds a = some (target, pair))
    (hp : (x.accumulators.state target + pair).InRange) :
    x.step c a = (some ⟨target, pair, .ok ()⟩,
      ⟨x.accumulators.set target (x.accumulators.state target + pair), x.move c a⟩) := by
  rw [step, ha]
  simp only [Accumulators.add_of_inRange hp]

theorem step_of_not_inRange (ha : (x.callers c).adds a = some (target, pair))
    (hp : ¬ (x.accumulators.state target + pair).InRange) :
    x.step c a = (some ⟨target, pair, .error .overflow⟩, ⟨x.accumulators, x.move c a⟩) := by
  rw [step, ha]
  simp only [Accumulators.add_of_not_inRange hp]

/-- A stroke adds nothing, or a pair as a whole, or is refused. -/
theorem step_cases (x : Crossing) (c : Nat) (a : Stroke) :
    x.step c a = (none, ⟨x.accumulators, x.move c a⟩) ∨
    ∃ target pair, (x.callers c).adds a = some (target, pair) ∧
      (((x.accumulators.state target + pair).InRange ∧
        x.step c a = (some ⟨target, pair, .ok ()⟩,
          ⟨x.accumulators.set target (x.accumulators.state target + pair), x.move c a⟩)) ∨
      x.step c a = (some ⟨target, pair, .error .overflow⟩, ⟨x.accumulators, x.move c a⟩)) := by
  cases ha : (x.callers c).adds a with
  | none => exact Or.inl (step_of_adds_none ha)
  | some p =>
    obtain ⟨target, pair⟩ := p
    refine Or.inr ⟨target, pair, rfl, ?_⟩
    by_cases hp : (x.accumulators.state target + pair).InRange
    · exact Or.inl ⟨hp, step_of_inRange ha hp⟩
    · exact Or.inr (step_of_not_inRange ha hp)

theorem callers_step (x : Crossing) (c : Nat) (a : Stroke) :
    (x.step c a).2.callers = x.move c a := by
  rcases x.step_cases c a with hs | ⟨target, pair, -, ⟨-, hs⟩ | hs⟩ <;> rw [hs]

theorem has_step (hh : x.accumulators.Has h) (c : Nat) (a : Stroke) :
    (x.step c a).2.accumulators.Has h := by
  rcases x.step_cases c a with hs | ⟨target, pair, -, ⟨-, hs⟩ | hs⟩ <;> rw [hs]
  · exact hh
  · exact Accumulators.has_set hh ..
  · exact hh

theorem state_step (hh : x.accumulators.Has h) (c : Nat) (a : Stroke) :
    (x.step c a).2.accumulators.state h =
      x.accumulators.state h + (gains h (x.step c a).1.toList).sum := by
  rcases x.step_cases c a with hs | ⟨target, pair, -, ⟨-, hs⟩ | hs⟩ <;> rw [hs]
  · simp [gains]
  · by_cases ht : target = h
    · subst ht
      simp [gains, Accumulators.state_set_self hh]
    · simp [gains, ht, Accumulators.state_set_of_ne ht]
  · simp [gains]

theorem inRange_step (hh : x.accumulators.Has h) (hr : (x.accumulators.state h).InRange) (c : Nat)
    (a : Stroke) : ((x.step c a).2.accumulators.state h).InRange := by
  rcases x.step_cases c a with hs | ⟨target, pair, -, ⟨hp, hs⟩ | hs⟩ <;> rw [hs]
  · exact hr
  · by_cases ht : target = h
    · subst ht
      rwa [Accumulators.state_set_self hh]
    · rwa [Accumulators.state_set_of_ne ht]
  · exact hr

theorem state_step_of_ne (ha : ∀ pair, (x.callers c).adds a ≠ some (h, pair)) :
    (x.step c a).2.accumulators.state h = x.accumulators.state h := by
  rcases x.step_cases c a with hs | ⟨target, pair, hadds, ⟨-, hs⟩ | hs⟩ <;> rw [hs]
  refine Accumulators.state_set_of_ne ?_ _
  rintro rfl
  exact ha pair hadds

/-- Whoever has a copy in hand has taken it just now, or has had it and has not gone on. -/
theorem holding_next {who : Merger} {copy : Snapshot}
    (hn : who.next t a = .holding target source copy) :
    (who = .free ∧ a = .copy target source ∧ t.state source = copy) ∨
    (who = .holding target source copy ∧ a ≠ .proceed) := by
  cases who with
  | free =>
    cases a with
    | copy target' source' =>
      cases hn
      exact Or.inl ⟨rfl, rfl, rfl⟩
    | _ => cases hn
  | holding target' source' copy' =>
    cases a with
    | proceed => cases hn
    | _ => exact Or.inr ⟨hn, by simp⟩

/-! ### Whole rows -/

theorem run_append (x : Crossing) (acts later : List (Nat × Stroke)) :
    x.run (acts ++ later) = ((x.run acts).1 ++ ((x.run acts).2.run later).1,
      ((x.run acts).2.run later).2) := by
  induction acts generalizing x with
  | nil => rfl
  | cons act acts ih =>
    obtain ⟨c, a⟩ := act
    simp [run, ih]

theorem after_concat (t : Accumulators) (acts : List (Nat × Stroke)) (c : Nat) (a : Stroke) :
    after t (acts ++ [(c, a)]) = ((after t acts).step c a).2 := by
  rw [after, run_append]
  rfl

theorem additions_concat (t : Accumulators) (acts : List (Nat × Stroke)) (c : Nat) (a : Stroke) :
    additions t (acts ++ [(c, a)]) = additions t acts ++ ((after t acts).step c a).1.toList := by
  rw [additions, run_append]
  simp [run, additions, after]

theorem gains_append (h : Handle) (tried later : List Addition) :
    gains h (tried ++ later) = gains h tried ++ gains h later := List.filterMap_append

theorem has_after (hh : t.Has h) (acts : List (Nat × Stroke)) :
    (after t acts).accumulators.Has h := by
  induction acts using List.reverseRecOn with
  | nil => exact hh
  | append_singleton acts act ih =>
    obtain ⟨c, a⟩ := act
    rw [after_concat]
    exact has_step ih c a

theorem state_after (hh : t.Has h) (acts : List (Nat × Stroke)) :
    (after t acts).accumulators.state h = t.state h + (gains h (additions t acts)).sum := by
  induction acts using List.reverseRecOn with
  | nil => exact (add_zero _).symm
  | append_singleton acts act ih =>
    obtain ⟨c, a⟩ := act
    rw [after_concat, additions_concat, gains_append, List.sum_append, ← add_assoc, ← ih]
    exact state_step (has_after hh acts) c a

theorem inRange_after (hh : t.Has h) (hr : (t.state h).InRange) (acts : List (Nat × Stroke)) :
    ((after t acts).accumulators.state h).InRange := by
  induction acts using List.reverseRecOn with
  | nil => exact hr
  | append_singleton acts act ih =>
    obtain ⟨c, a⟩ := act
    rw [after_concat]
    exact inRange_step (has_after hh acts) ih c a

/-- Behind every copy in hand stands the step that took it. -/
theorem copied_after {copy : Snapshot}
    (hc : (after t acts).callers c = .holding target source copy) :
    ∃ first between, acts = first ++ (c, .copy target source) :: between ∧
      (after t first).callers c = .free ∧ (after t first).accumulators.state source = copy ∧
      (c, .proceed) ∉ between := by
  induction acts using List.reverseRecOn with
  | nil => cases hc
  | append_singleton acts act ih =>
    obtain ⟨c', a⟩ := act
    -- The copy is older than the last stroke, which has not used it up.
    have hold (hc : (after t acts).callers c = .holding target source copy)
        (ha : (c', a) ≠ (c, .proceed)) : ∃ first between,
        acts ++ [(c', a)] = first ++ (c, .copy target source) :: between ∧
          (after t first).callers c = .free ∧ (after t first).accumulators.state source = copy ∧
          (c, .proceed) ∉ between := by
      obtain ⟨first, between, rfl, hfree, hstate, hb⟩ := ih hc
      refine ⟨first, between ++ [(c', a)], by simp, hfree, hstate, ?_⟩
      simp [hb, ha.symm]
    rw [after_concat, callers_step, move] at hc
    by_cases hcc : c' = c
    · subst hcc
      rw [Function.update_self] at hc
      rcases holding_next hc with ⟨hfree, rfl, hstate⟩ | ⟨hwho, ha⟩
      · exact ⟨acts, [], rfl, hfree, hstate, List.not_mem_nil⟩
      · exact hold hwho (by simp [ha])
    · rw [Function.update_of_ne (Ne.symm hcc)] at hc
      exact hold hc (by simp [hcc])

theorem run_merge (hc : x.callers c = .free) (target source : Handle) :
    x.run [(c, .copy target source), (c, .proceed)] =
      match x.accumulators.merge target source with
      | .ok t' => ([⟨target, x.accumulators.state source, .ok ()⟩], ⟨t', x.callers⟩)
      | .error e => ([⟨target, x.accumulators.state source, .error e⟩], x) := by
  have hback : Function.update x.callers c .free = x.callers := by
    rw [← hc]
    exact Function.update_eq_self ..
  cases hm : x.accumulators.merge target source with
  | ok t' =>
    rw [Accumulators.merge] at hm
    simp [run, step, move, hc, Merger.adds, Merger.next, hm, hback]
  | error e =>
    rw [Accumulators.merge] at hm
    simp [run, step, move, hc, Merger.adds, Merger.next, hm, hback]

/-- No addition is lost, whatever the callers do at the same time. -/
theorem nothing_lost (t : Accumulators) (ht : ∀ h, t.Has h → (t.state h).InRange)
    (acts : List (Nat × Stroke)) : NothingLost t acts where
  state_eq h hh := state_after hh acts
  inRange h hh := inRange_after hh (ht h hh) acts
  copied c target source copy hc := copied_after hc
  adds := by
    intro c a target pair ha hh
    by_cases hp : ((after t acts).accumulators.state target + pair).InRange
    · rw [step_of_inRange ha hp]
      exact Or.inl ⟨hp, rfl, Accumulators.state_set_self (has_after hh acts) _⟩
    · rw [step_of_not_inRange ha hp]
      exact Or.inr ⟨hp, rfl, rfl⟩
  others c a h ha := state_step_of_ne ha
  alone c target source hc := run_merge hc target source

/-- Two merges cross while a third caller adds to one of their accumulators. Then one is merged with
    itself and added to in between, and at last an addition is refused. -/
theorem nothing_lost_of_crossed :
    let t : Accumulators := ⟨[⟨1, 1⟩, ⟨10, 2⟩]⟩
    let acts := [(0, .copy ⟨0⟩ ⟨1⟩), (1, .copy ⟨1⟩ ⟨0⟩), (2, .add ⟨0⟩ ⟨5, 1⟩), (0, .proceed),
      (1, .proceed), (3, .copy ⟨0⟩ ⟨0⟩), (2, .add ⟨0⟩ ⟨100, 1⟩), (3, .proceed),
      (0, .add ⟨0⟩ ⟨greatest, 1⟩)]
    NothingLost t acts ∧ (after t acts).accumulators = ⟨[⟨132, 9⟩, ⟨11, 3⟩]⟩ ∧
      gains ⟨0⟩ (additions t acts) = [⟨5, 1⟩, ⟨10, 2⟩, ⟨100, 1⟩, ⟨16, 4⟩] := by
  intro t acts
  refine ⟨nothing_lost t ?_ acts, by decide +kernel, by decide +kernel⟩
  rintro ⟨i⟩ hi
  have hcases : i = 0 ∨ i = 1 := by
    simp only [t, Accumulators.Has, List.length_cons, List.length_nil] at hi
    omega
  rcases hcases with rfl | rfl <;> decide

end Crossing

end WindowedMean
