import WindowedMean.Ingestion

/-! Stopping several ingestions together.

    All of them are asked to stop first, and then each is asked once more and waited for, in order.
    While one is waited for the others get their turns too, so by the time the last one is waited
    for most of the draining has been done side by side. -/

namespace WindowedMean.Ingestion

/-- Every worker has one turn. -/
def turnAll (g : List Ingestion) : List Ingestion := g.map fun i => i.turn.2

/-- Rounds of turns until the worker at a position has finished; `rounds` bounds their number. -/
def awaitAt (k : Nat) : Nat → List Ingestion → List Ingestion
  | 0, g => g
  | rounds + 1, g =>
    match g[k]? with
    | none => g
    | some i => if i.phase = .finished then g else awaitAt k rounds (turnAll g)

/-- Asks the worker at a position to stop and waits until it has finished. -/
def stopAt (g : List Ingestion) (k : Nat) : List Ingestion :=
  match g[k]? with
  | none => g
  | some i => awaitAt k i.enough (g.set k i.signal)

/-- Asks all workers to stop, then stops each. -/
def stopAll (g : List Ingestion) : List Ingestion :=
  (List.range g.length).foldl stopAt (g.map signal)

end WindowedMean.Ingestion
