import WindowedMean.Ingestion
import WindowedMean.Random.Seed
import WindowedMean.Random.Uniform

/-! A *producer* submits random values to an ingestion, one at a time with a pause after each.

    The first value is due at once. A producer waits for room in the queue and never drops a value;
    it ends when it is stopped, or when it finds the ingestion closed. Its values come from a stream
    of words: a seed fixes the stream, and without a seed it is taken from outside. -/

namespace WindowedMean

/-- The exclusive upper bound of the values, the pause in milliseconds and what the draws start
    from. A bound below one counts as one. -/
structure ProducerSettings where
  range : Int
  pause : Nat
  seed : Option Nat
  deriving DecidableEq, Repr

/-- A producer: its settings, its stream and the position in it, when the next value is due, and
    whether it has ended. -/
structure Producer where
  settings : ProducerSettings
  stream : Nat → UInt64
  position : Nat
  due : Nat
  finished : Bool

namespace Producer

/-- A producer before its first value; without a seed it draws from the stream `outside`. -/
def start (settings : ProducerSettings) (outside : Nat → UInt64) : Producer :=
  ⟨settings, (settings.seed.map Random.stream).getD outside, 0, 0, false⟩

/-- The number of different values. -/
def span (p : Producer) : Nat := (max 1 p.settings.range).toNat

theorem span_pos (p : Producer) : 0 < p.span := by
  unfold span
  omega

/-- The next value, and the position behind what is drawn for it. -/
def draw (p : Producer) : Nat × Nat := Random.below p.stream p.span p.position

/-- The next value. -/
def value (p : Producer) : Int := p.draw.1

theorem value_nonneg (p : Producer) : 0 ≤ p.value := Int.natCast_nonneg _

theorem value_lt (p : Producer) : p.value < p.span :=
  Int.ofNat_lt.2 (Random.below_lt p.stream p.span_pos p.position)

/-- Submits the next value, waiting for room, and lets the worker go on; a closed ingestion ends the
    producer. -/
def feed (p : Producer) (i : Ingestion) : Producer × Ingestion :=
  if p.finished then (p, i)
  else
    let p' := { p with position := p.draw.2 }
    match i.submitWaiting Ingestion.shift p.value with
    | (.ok _, _, i') => ({ p' with due := p.due + p.settings.pause }, i'.settle)
    | (.error _, _, i') => ({ p' with finished := true }, i'.settle)

/-- Submits a number of values. -/
def feedMany : Nat → Producer → Ingestion → Producer × Ingestion
  | 0, p, i => (p, i)
  | n + 1, p, i =>
    let (p', i') := p.feed i
    feedMany n p' i'

/-- Submits values as long as the window has room; `values` bounds their number. -/
def feedRoom : Nat → Producer → Ingestion → Producer × Ingestion
  | 0, p, i => (p, i)
  | values + 1, p, i =>
    if p.finished || i.node.window.capacity ≤ i.node.window.residents.length then (p, i)
    else
      let (p', i') := p.feed i
      feedRoom values p' i'

/-- The worker goes on until it has nothing to do, and then values are submitted until the window is
    full, at most `values` of them. -/
def fill (values : Nat) (p : Producer) (i : Ingestion) : Producer × Ingestion :=
  feedRoom values p i.settle

/-- How many values become due up to a time. -/
def dueBy (p : Producer) (time : Nat) : Nat :=
  if time < p.due then 0 else (time - p.due) / p.settings.pause + 1

/-- The worker goes on until it has nothing to do, and then all values that become due up to a time
    are submitted. -/
def advance (p : Producer) (time : Nat) (i : Ingestion) : Producer × Ingestion :=
  feedMany (p.dueBy time) p i.settle

/-- Ends the producer. -/
def stop (p : Producer) : Producer := { p with finished := true }

end Producer

end WindowedMean
