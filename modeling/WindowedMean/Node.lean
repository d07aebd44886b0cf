import WindowedMean.Tracker

/-! A *node* is one tracker with a registry of its own, under a number.

    Its status is read from the accumulator and the window; a query copies one accumulator out. -/

namespace WindowedMean

/-- A numbered tracker with its own registry. -/
@[ext] structure Node where
  id : Nat
  registry : Registry
  tracker : Tracker

/-- What a node says about itself. -/
structure Status where
  node : Nat
  total : Int
  count : Int
  average : Option Float
  windowLength : Nat
  windowCapacity : Nat

namespace Node

/-- A node that has seen nothing. -/
def ofWindow (id : Nat) (w : Window) : Node := ⟨id, .empty, ⟨w, meanKey⟩⟩

/-- A node with an empty window; a capacity of zero makes none. -/
def ofCapacity? (id capacity : Nat) : Option Node := (Window.ofCapacity? capacity).map (ofWindow id)

/-- The node's window. -/
def window (n : Node) : Window := n.tracker.window

/-- Folds a batch in. -/
def process (n : Node) (events : List Int) : Except TrackerError Outcome × Node :=
  let (r, s, reg) := n.tracker.process n.registry events
  (r, { n with tracker := s, registry := reg })

/-- A copy of the accumulator under a key, if the node has one. -/
def fetch (n : Node) (key : String) : Option Snapshot := n.registry.stored key

/-- The node's mean as total and count; nothing stored reads as nothing counted. -/
def mean (n : Node) : Snapshot := (n.fetch meanKey).getD 0

/-- The node's view of itself. -/
def status (n : Node) : Status where
  node := n.id
  total := n.mean.total
  count := n.mean.count
  average := n.mean.average.toOption
  windowLength := n.window.residents.length
  windowCapacity := n.window.capacity

/-- One request to the node's tracker, answered. -/
def perform (n : Node) (op : Tracker.Op) : Tracker.Answer × Node :=
  let (a, s, reg) := n.tracker.perform n.registry op
  (a, { n with tracker := s, registry := reg })

end Node

end WindowedMean
