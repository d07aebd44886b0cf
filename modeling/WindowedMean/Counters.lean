import WindowedMean.Metric

/-! Counting what happens.

    A counter shows up once something was counted in it, even if that was zero of something; until
    then it is *untouched*. Each node counts what its ingestion does, and the reducing side counts
    for all nodes together. -/

namespace WindowedMean

/-- A counter; `none` is an untouched one. -/
structure Tally where
  shown : Option Nat
  deriving DecidableEq, Repr

namespace Tally

/-- Nothing has been counted yet. -/
def untouched : Tally := ⟨none⟩

/-- What has been counted so far. -/
def count (t : Tally) : Nat := t.shown.getD 0

/-- Counts `n` more. -/
def bump (t : Tally) (n : Nat) : Tally := ⟨some (t.count + n)⟩

@[simp] theorem count_untouched : untouched.count = 0 := rfl
@[simp] theorem count_bump (t : Tally) (n : Nat) : (t.bump n).count = t.count + n := rfl

end Tally

/-- What one node's ingestion has counted. -/
structure NodeCounters where
  submitted : Tally
  rejected : Tally
  processed : Tally
  evicted : Tally
  failures : Tally
  deriving DecidableEq, Repr

namespace NodeCounters

/-- Nothing has been counted yet. -/
def zero : NodeCounters := ⟨.untouched, .untouched, .untouched, .untouched, .untouched⟩

/-- Each counter under its series. -/
def series (c : NodeCounters) : List (Metric × Tally) :=
  [(.eventsSubmitted, c.submitted), (.eventsRejected, c.rejected), (.eventsProcessed, c.processed),
    (.eventsEvicted, c.evicted), (.stageFailures, c.failures)]

end NodeCounters

/-- What the reducing side has counted, how many fan-outs it has timed, and the average it published
    last. -/
structure ReduceCounters where
  runs : Tally
  noData : Tally
  unreachable : Tally
  fanOuts : Tally
  average : Option Float

namespace ReduceCounters

/-- Nothing has been counted yet. -/
def zero : ReduceCounters := ⟨.untouched, .untouched, .untouched, .untouched, none⟩

/-- Each counter under its series. -/
def series (c : ReduceCounters) : List (Metric × Tally) :=
  [(.reduceRuns, c.runs), (.reduceNoData, c.noData), (.reduceUnreachable, c.unreachable),
    (.reduceDuration, c.fanOuts)]

end ReduceCounters

end WindowedMean
