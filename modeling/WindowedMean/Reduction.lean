import WindowedMean.Cluster
import WindowedMean.Counters

/-! A *reduction* folds the replies of a cluster into one global average.

    Values are added up as they come; one that would take the sum out of range is left out. A node
    without a value adds nothing, one that did not answer is counted:

        reply        adds to the sum    counts as
        value        its pair           contributing, unless it was left out
        absent       —                  —
        unreachable  —                  unreachable

    There is an average if the counts do not add up to zero. -/

namespace WindowedMean

/-- The average over all nodes, with what it was made of. -/
structure GlobalAverage where
  average : Float
  total : Int
  count : Int
  contributing : Nat
  unreachable : Nat

/-- Why there is no global average. -/
inductive ReduceError where
  | noData (nodes unreachable : Nat)
  deriving DecidableEq, Repr

/-- What an operator reads about the failure. -/
def ReduceError.message : ReduceError → String
  | .noData nodes unreachable => s!"no data yet across {nodes} node(s), {unreachable} unreachable"

/-- A fold over replies. -/
@[ext] structure Reduction where
  sum : Snapshot
  nodes : Nat
  contributing : Nat
  unreachable : Nat
  deriving DecidableEq, Repr

namespace Reduction

/-- No reply has come yet. -/
def empty : Reduction := ⟨0, 0, 0, 0⟩

/-- Takes one reply in, and says whether more are wanted; they always are. -/
def collect (r : Reduction) (reply : Reply) : Bool × Reduction :=
  let r' := { r with nodes := r.nodes + 1 }
  match reply with
  | .value _ s =>
    match r.sum.add s with
    | .ok sum => (true, { r' with sum := sum, contributing := r.contributing + 1 })
    | .error _ => (true, r')
  | .absent _ => (true, r')
  | .unreachable _ _ => (true, { r' with unreachable := r.unreachable + 1 })

/-- Takes replies in as long as more are wanted. -/
def collectAll (r : Reduction) : List Reply → Reduction
  | [] => r
  | reply :: later =>
    match r.collect reply with
    | (true, r') => r'.collectAll later
    | (false, r') => r'

/-- The fold of a row of replies. -/
def ofReplies (replies : List Reply) : Reduction := empty.collectAll replies

/-- The average, unless the counts add up to zero. -/
def result (r : Reduction) : Except ReduceError GlobalAverage :=
  match r.sum.average with
  | .ok average => .ok ⟨average, r.sum.total, r.sum.count, r.contributing, r.unreachable⟩
  | .error _ => .error (.noData r.nodes r.unreachable)

end Reduction

/-- Folds the replies of one fan-out and counts it, with those who did not answer. -/
def ReduceCounters.reduce (c : ReduceCounters) (replies : List Reply) :
    Except ReduceError GlobalAverage × ReduceCounters :=
  let r := Reduction.ofReplies replies
  (r.result, { c with
    fanOuts := c.fanOuts.bump 1
    unreachable := c.unreachable.bump r.unreachable })

/-- The middle of the values below a bound, as a whole number: half the bound, rounded toward
    zero. -/
def idealAverage (range : Int) : Float := Float.ofInt (range.tdiv 2)

end WindowedMean
