/-! The series that the program exposes, each with a name, a line of help and a kind. -/

namespace WindowedMean

/-- One exposed series. -/
inductive Metric where
  | eventsSubmitted
  | eventsRejected
  | eventsProcessed
  | eventsEvicted
  | stageFailures
  | reduceRuns
  | reduceNoData
  | reduceUnreachable
  | globalAverage
  | reduceLastRun
  | reduceDuration
  deriving DecidableEq, Repr

/-- What a series counts up, holds, or sums up. -/
inductive MetricKind where
  | counter
  | gauge
  | summary
  deriving DecidableEq, Repr

/-- The word for a kind in an exposition. -/
def MetricKind.text : MetricKind → String
  | .counter => "counter"
  | .gauge => "gauge"
  | .summary => "summary"

namespace Metric

/-- All series. -/
def all : List Metric :=
  [.eventsSubmitted, .eventsRejected, .eventsProcessed, .eventsEvicted, .stageFailures, .reduceRuns,
    .reduceNoData, .reduceUnreachable, .globalAverage, .reduceLastRun, .reduceDuration]

/-- The name of a series. -/
def name : Metric → String
  | .eventsSubmitted => "events_submitted_total"
  | .eventsRejected => "events_rejected_total"
  | .eventsProcessed => "events_processed_total"
  | .eventsEvicted => "events_evicted_total"
  | .stageFailures => "stage_failures_total"
  | .reduceRuns => "reduce_runs_total"
  | .reduceNoData => "reduce_no_data_total"
  | .reduceUnreachable => "reduce_unreachable_total"
  | .globalAverage => "global_average"
  | .reduceLastRun => "reduce_last_run_ts"
  | .reduceDuration => "reduce_duration_ms"

/-- What a series means. -/
def help : Metric → String
  | .eventsSubmitted => "Events accepted by the ingestion queue."
  | .eventsRejected => "Events refused by the ingestion queue (full or closed)."
  | .eventsProcessed => "Events folded into a node accumulator."
  | .eventsEvicted => "Events evicted from a node window."
  | .stageFailures => "Batches dropped because the stage could not apply them."
  | .reduceRuns => "Global reduce cycles executed."
  | .reduceNoData => "Reduce cycles that found no data."
  | .reduceUnreachable => "Per-node queries that did not answer during a reduce."
  | .globalAverage => "Most recent global windowed average."
  | .reduceLastRun => "Unix ts of the last reduce cycle."
  | .reduceDuration => "Reduce fan-out time in milliseconds."

/-- The kind of a series. -/
def kind : Metric → MetricKind
  | .globalAverage | .reduceLastRun => .gauge
  | .reduceDuration => .summary
  | _ => .counter

/-- The series of a name. -/
def ofName? (s : String) : Option Metric := all.find? fun m => m.name == s

/-- The name of a series that stands for one node. -/
def labelled (m : Metric) (node : Nat) : String := s!"{m.name}\x7bnode=\"{node}\"\x7d"

end Metric

end WindowedMean
