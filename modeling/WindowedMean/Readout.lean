import WindowedMean.Instant
import WindowedMean.Reduction

/-! A *readout* is what an operator sees of one cycle: a global average, or that there was no data,
    next to the average that was to be expected and the time. -/

namespace WindowedMean

/-- The result of one cycle. -/
inductive Readout where
  | ok (g : GlobalAverage) (ideal : Float) (time : Instant)
  | noData (nodes unreachable : Nat) (ideal : Float) (time : Instant)

namespace Readout

/-- The readout of a result. -/
def ofResult (r : Except ReduceError GlobalAverage) (ideal : Float) (time : Instant) : Readout :=
  match r with
  | .ok g => .ok g ideal time
  | .error (.noData nodes unreachable) => .noData nodes unreachable ideal time

/-- The global average, if there was data. -/
def average : Readout → Option Float
  | .ok g _ _ => some g.average
  | .noData .. => none

/-- The number of nodes that did not answer. -/
def unreachable : Readout → Nat
  | .ok g _ _ => g.unreachable
  | .noData _ u _ _ => u

/-- The line that is printed. -/
def display : Readout → String
  | .ok g ideal _ =>
    s!"Got query result [avg={Decimal.display g.average}, idealAvg={Decimal.display ideal}]"
  | .noData _ _ ideal _ => s!"Got query result [no data yet, idealAvg={Decimal.display ideal}]"

/-- A readout as JSON. -/
def json : Readout → Json.Value
  | .ok g ideal time =>
    .object [("status", .string "ok"), ("avg", .float g.average), ("ideal_avg", .float ideal),
      ("total", .int g.total), ("count", .int g.count), ("contributing", .nat g.contributing),
      ("unreachable", .nat g.unreachable), ("at", .string time.text)]
  | .noData nodes unreachable ideal time =>
    .object [("status", .string "no_data"), ("ideal_avg", .float ideal), ("nodes", .nat nodes),
      ("unreachable", .nat unreachable), ("at", .string time.text)]

end Readout

end WindowedMean
