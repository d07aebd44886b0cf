import WindowedMean.Registry
import WindowedMean.Window

/-! A *tracker* folds batches of events into a windowed mean.

    Each event that enters the window is added to the accumulator and each event that leaves it is
    taken off, so the accumulator holds the sum and the number of the residents:

        batch →  window  → displaced
            + ↘         ↙ −
             accumulator

    A batch is one step. Its *net change* is worked out in exact integers over the whole batch, and
    only if that change and the new state are in range does anything happen. -/

namespace WindowedMean

/-- Why a batch was not folded in. -/
inductive TrackerError where
  | registry (e : RegistryError)
  | overflow (events : Nat)
  deriving DecidableEq, Repr

/-- What an operator reads about the failure. -/
def TrackerError.message : TrackerError → String
  | .registry e => e.message
  | .overflow events => s!"batch of {events} event(s) would overflow the running total"

/-- What one batch did: how many events entered and how many left. -/
structure Outcome where
  processed : Nat
  evicted : Nat
  deriving DecidableEq, Repr

/-- A window and the key of the accumulator that follows it. -/
@[ext] structure Tracker where
  window : Window
  key : String

/-- What a batch adds less what it displaces, over the exact integers. -/
def exactChange (added evicted : List Int) : Snapshot :=
  Snapshot.ofEvents added - Snapshot.ofEvents evicted

/-- The exact change of a batch, if both its fields are in range. -/
def netChange (added evicted : List Int) : Option Snapshot :=
  match narrow (exactChange added evicted).total, narrow (exactChange added evicted).count with
  | some total, some count => some ⟨total, count⟩
  | _, _ => none

namespace Tracker

/-- Puts the net change of a batch into the accumulator; any refusal names the batch. -/
def settle (reg : Registry) (h : Handle) (events evicted : List Int) : Except TrackerError Registry :=
  match netChange events evicted with
  | none => .error (.overflow events.length)
  | some d =>
    match reg.add h d with
    | .ok reg' => .ok reg'
    | .error _ => .error (.overflow events.length)

/-- Folds a batch in. The accumulator is there afterwards even if the batch is refused. -/
def process (s : Tracker) (reg : Registry) (events : List Int) :
    Except TrackerError Outcome × Tracker × Registry :=
  let (h, reg') := reg.getOrCreate s.key
  match s.window.tryAll events (settle reg' h events) with
  | .error e => (.error e, s, reg')
  | .ok (reg'', evicted, w) => (.ok ⟨events.length, evicted.length⟩, { s with window := w }, reg'')

/-- A request to a tracker and its registry: a batch, a direct touch of an accumulator by key, or a
    request to the window behind the accumulator's back. -/
inductive Op where
  | process (events : List Int)
  | preset (key : String) (s : Snapshot)
  | add (key : String) (d : Snapshot)
  | get (key : String)
  | window (op : Window.Op)

/-- What a tracker answers. -/
inductive Answer where
  | outcome (r : Except TrackerError Outcome)
  | stored (s : Option Snapshot)
  | added (r : Except AverageError Unit)
  | window (a : Window.Answer)

/-- One request, answered. -/
def perform (s : Tracker) (reg : Registry) : Op → Answer × Tracker × Registry
  | .process events => let (r, s', reg') := s.process reg events; (.outcome r, s', reg')
  | .preset key d => let (r, reg') := reg.preset key d; (.stored r, s, reg')
  | .add key d => let (r, reg') := reg.addUnder key d; (.added r, s, reg')
  | .get key => (.stored (reg.stored key), s, reg)
  | .window op => let (a, w) := s.window.perform op; (.window a, { s with window := w }, reg)

end Tracker

/-- Several trackers over one registry. -/
structure Bench where
  trackers : List Tracker
  registry : Registry

namespace Bench

/-- One request to the tracker at a position; nothing happens where there is no tracker. -/
def perform (b : Bench) (i : Nat) (op : Tracker.Op) : Option Tracker.Answer × Bench :=
  match b.trackers[i]? with
  | none => (none, b)
  | some s =>
    let (a, s', reg) := s.perform b.registry op
    (some a, ⟨b.trackers.set i s', reg⟩)

end Bench

end WindowedMean
