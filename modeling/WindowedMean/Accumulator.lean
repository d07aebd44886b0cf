import WindowedMean.Snapshot

/-! Accumulators are shared: several owners may hold the same one and each sees what the others add.

    So an accumulator is a *handle*, and the states of all accumulators made so far stand in one
    table. Two handles are the same accumulator exactly when they are equal. An update is one step:
    both fields change together or, if one would leave its range, neither does. -/

namespace WindowedMean

/-- A name for one accumulator of a table. -/
structure Handle where
  index : Nat
  deriving DecidableEq, Repr

/-- The states of all accumulators made so far, in the order of their making. -/
structure Accumulators where
  states : List Snapshot
  deriving DecidableEq, Repr

namespace Accumulators

/-- No accumulator has been made yet. -/
def none : Accumulators := ⟨[]⟩

/-- The handle names an accumulator of this table. -/
def Has (t : Accumulators) (h : Handle) : Prop := h.index < t.states.length

instance (t : Accumulators) (h : Handle) : Decidable (t.Has h) :=
  inferInstanceAs (Decidable (h.index < t.states.length))

/-- A copy of an accumulator's state; a handle that names none reads as empty. -/
def state (t : Accumulators) (h : Handle) : Snapshot := t.states.getD h.index 0

/-- A new accumulator with the given state, and its handle. -/
def make (t : Accumulators) (s : Snapshot) : Handle × Accumulators :=
  (⟨t.states.length⟩, ⟨t.states ++ [s]⟩)

/-- Writes the state of one accumulator. -/
def set (t : Accumulators) (h : Handle) (s : Snapshot) : Accumulators :=
  ⟨t.states.set h.index s⟩

/-- Adds a pair to an accumulator; on overflow there is no new table. -/
def add (t : Accumulators) (h : Handle) (d : Snapshot) : Except AverageError Accumulators :=
  match (t.state h).add d with
  | .ok s => .ok (t.set h s)
  | .error e => .error e

/-- Adds the present state of one accumulator to another, maybe itself. -/
def merge (t : Accumulators) (target source : Handle) : Except AverageError Accumulators :=
  t.add target (t.state source)

theorem state_make_self (t : Accumulators) (s : Snapshot) : (t.make s).2.state (t.make s).1 = s := by
  simp [make, state]

theorem state_make_of_has {t : Accumulators} {h : Handle} (hh : t.Has h) (s : Snapshot) :
    (t.make s).2.state h = t.state h := by
  simp only [Has] at hh
  simp [make, state, List.getElem?_append_left hh]

theorem state_set_self {t : Accumulators} {h : Handle} (hh : t.Has h) (s : Snapshot) :
    (t.set h s).state h = s := by
  simp only [Has] at hh
  simp [set, state, List.getElem?_set_self hh]

theorem state_set_of_ne {t : Accumulators} {h h' : Handle} (hne : h ≠ h') (s : Snapshot) :
    (t.set h s).state h' = t.state h' := by
  have hi : h.index ≠ h'.index := fun hi => hne (by cases h; cases h'; simp_all)
  simp [set, state, List.getElem?_set_ne hi]

end Accumulators

end WindowedMean
