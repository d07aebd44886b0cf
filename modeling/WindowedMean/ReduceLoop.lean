import WindowedMean.Readout

/-! The loop that reduces once per interval and publishes a readout each time.

    The first cycle is due one interval after the start. Only the counters and the latest readout
    stay from one cycle to the next; a readout is made from its own replies alone. An interval of
    zero has no cycles: such a loop ends as soon as it runs. -/

namespace WindowedMean

/-- A loop: its interval in milliseconds, the average to be expected, how many cycles it has been
    through, what it published last, and what was counted. -/
structure ReduceLoop where
  interval : Nat
  ideal : Float
  cycles : Nat
  latest : Option Readout
  counters : ReduceCounters

namespace ReduceLoop

/-- A loop before its first cycle. -/
def start (interval : Nat) (ideal : Float) : ReduceLoop := ⟨interval, ideal, 0, none, .zero⟩

/-- The loop has cycles at all. -/
def runs (l : ReduceLoop) : Bool := 0 < l.interval

/-- When the next cycle is due, in milliseconds after the start. -/
def due (l : ReduceLoop) : Nat := (l.cycles + 1) * l.interval

/-- One cycle with its replies: the readout is published and counted. -/
def cycle (l : ReduceLoop) (replies : List Reply) (time : Instant) : Readout × ReduceLoop :=
  let (r, c) := l.counters.reduce replies
  let readout := Readout.ofResult r l.ideal time
  let c := { c with runs := c.runs.bump 1 }
  let c :=
    match r with
    | .ok g => { c with average := some g.average }
    | .error _ => { c with noData := c.noData.bump 1 }
  (readout, { l with cycles := l.cycles + 1, latest := some readout, counters := c })

/-- Cycles one after the other, each at its due time: the readouts with their times, and the end.
    A loop without cycles has no readouts. -/
def run (l : ReduceLoop) (clock : Clock) : List (List Reply) → List (Nat × Readout) × ReduceLoop
  | [] => ([], l)
  | replies :: later =>
    if l.runs then
      let (readout, l') := l.cycle replies (clock l.due)
      let (more, l'') := l'.run clock later
      ((l.due, readout) :: more, l'')
    else ([], l)

end ReduceLoop

end WindowedMean
