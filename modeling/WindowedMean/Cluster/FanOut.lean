import WindowedMean.Cluster

/-! One query to every node of a cluster, step by step.

    Replies on behalf of members that are switched off are there at once. Every other member is
    *pending* until it answers from the state it has at that moment, or its time runs out:

        begin → pending → answer or expire → … → nobody pending

    The members may come in any order, and between two of these steps the nodes may change. -/

namespace WindowedMean

/-- A query under way: the replies so far, and the positions of the members still asked. -/
structure FanOut where
  key : String
  replies : List Reply
  pending : List Nat

/-- How the wait for the member at a position ends. -/
inductive Ending where
  | answer (k : Nat)
  | expire (k : Nat)
  deriving DecidableEq, Repr

/-- The position of the member whose wait ends. -/
def Ending.position : Ending → Nat
  | .answer k => k
  | .expire k => k

namespace FanOut

/-- Asks every member: those switched off have their reply, the others are pending. -/
def start (c : Cluster) (key : String) : FanOut where
  key := key
  replies := (c.members.filter fun m => !m.reachable).map fun m => .partitioned m.node.id
  pending := (List.range c.size).filter fun k => (c.members[k]?.map (·.reachable)).getD false

/-- The reply that an ending brings. -/
def reply (c : Cluster) (key : String) (m : Member) : Ending → Reply
  | .answer _ => .ofNode m.node key
  | .expire _ => .late m.node.id c.timeout

/-- The wait for one member ends; nothing happens if nobody waits for it. -/
def finish (c : Cluster) (f : FanOut) (e : Ending) : FanOut :=
  if e.position ∈ f.pending then
    match c.members[e.position]? with
    | none => f
    | some m =>
      { f with
        replies := f.replies ++ [reply c f.key m e]
        pending := f.pending.erase e.position }
  else f

end FanOut

namespace Cluster

/-- Asks every node for a key while no node changes; the waits end as given. -/
def collect (c : Cluster) (key : String) (endings : List Ending) : List Reply :=
  (endings.foldl (FanOut.finish c) (.start c key)).replies

/-- Every pending member answers, in the order of the members. -/
def allAnswer (c : Cluster) : List Ending := (List.range c.size).map .answer

/-- No pending member answers in time. -/
def allExpire (c : Cluster) : List Ending := (List.range c.size).map .expire

/-- How the waits end if nothing delays a member: it answers at once, but not before any time has
    passed. -/
def undelayed (c : Cluster) : List Ending := if c.timeout = 0 then c.allExpire else c.allAnswer

end Cluster

end WindowedMean
