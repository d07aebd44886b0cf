import WindowedMean.Bounds

/-! A *snapshot* is a pair of a total and a count, the state of an accumulator copied out.

    Snapshots are what nodes send to each other. They add exactly with `+`; `Snapshot.add` is the
    checked form that accumulators use, which refuses a sum one field of which would leave its
    range and so never leaves a half-made update behind. -/

namespace WindowedMean

/-- Why an accumulator gave no average, or took no update. -/
inductive AverageError where
  | noDataYet
  | overflow
  deriving DecidableEq, Repr

/-- What an operator reads about the failure. -/
def AverageError.message : AverageError → String
  | .noDataYet => "no data yet: accumulator count is zero"
  | .overflow => "accumulator overflow"

/-- A total and the number of events in it. -/
@[ext] structure Snapshot where
  total : Int
  count : Int
  deriving DecidableEq, Repr, Inhabited

namespace Snapshot

instance : Zero Snapshot := ⟨⟨0, 0⟩⟩

instance : Add Snapshot := ⟨fun s d => ⟨s.total + d.total, s.count + d.count⟩⟩

instance : Sub Snapshot := ⟨fun s d => ⟨s.total - d.total, s.count - d.count⟩⟩

@[simp] theorem total_zero : (0 : Snapshot).total = 0 := rfl
@[simp] theorem count_zero : (0 : Snapshot).count = 0 := rfl
@[simp] theorem total_add (s d : Snapshot) : (s + d).total = s.total + d.total := rfl
@[simp] theorem count_add (s d : Snapshot) : (s + d).count = s.count + d.count := rfl
@[simp] theorem total_sub (s d : Snapshot) : (s - d).total = s.total - d.total := rfl
@[simp] theorem count_sub (s d : Snapshot) : (s - d).count = s.count - d.count := rfl

/-- Both fields are in range. -/
def InRange (s : Snapshot) : Prop := Fits s.total ∧ Fits s.count

instance (s : Snapshot) : Decidable s.InRange :=
  inferInstanceAs (Decidable (Fits s.total ∧ Fits s.count))

/-- The snapshot of a list of events: their sum and their number. -/
def ofEvents (vs : List Int) : Snapshot := ⟨vs.foldr (· + ·) 0, vs.length⟩

/-- Total over count, each rounded to the nearest double before the division. -/
def average (s : Snapshot) : Except AverageError Float :=
  if s.count = 0 then .error .noDataYet else .ok (Float.ofInt s.total / Float.ofInt s.count)

/-- The sum of both fields, refused if either leaves its range. -/
def add (s d : Snapshot) : Except AverageError Snapshot :=
  if (s + d).InRange then .ok (s + d) else .error .overflow

theorem add_eq_ok_iff {s d r : Snapshot} : s.add d = .ok r ↔ (s + d).InRange ∧ r = s + d := by
  unfold add
  split <;> simp_all [eq_comm]

theorem add_eq_error_iff {s d : Snapshot} {e : AverageError} :
    s.add d = .error e ↔ ¬ (s + d).InRange ∧ e = .overflow := by
  unfold add
  split <;> simp_all [eq_comm]

end Snapshot

end WindowedMean
