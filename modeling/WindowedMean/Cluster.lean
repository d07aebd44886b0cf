import WindowedMean.Message
import WindowedMean.Start

/-! A *cluster* is a row of nodes, any of which may be switched off.

    Numbers need not be distinct: whoever looks a node up by its number finds the first member that
    has it, and that is also the member which is switched. A member that is switched off does not
    answer queries; nothing else about it changes. -/

namespace WindowedMean

/-- What a query brought back from one node. -/
inductive Reply where
  | value (node : Nat) (s : Snapshot)
  | absent (node : Nat)
  | unreachable (node : Nat) (reason : String)
  deriving DecidableEq, Repr

namespace Reply

/-- The node that the reply is about. -/
def node : Reply → Nat
  | .value n _ => n
  | .absent n => n
  | .unreachable n _ => n

/-- A reply as JSON. -/
def json : Reply → Json.Value
  | .value n s => .object [("reply", .string "value"), ("node", .nat n), ("snapshot", s.json)]
  | .absent n => .object [("reply", .string "absent"), ("node", .nat n)]
  | .unreachable n reason =>
    .object [("reply", .string "unreachable"), ("node", .nat n), ("reason", .string reason)]

/-- The reply of a node that was asked for a key. -/
def ofNode (n : Node) (key : String) : Reply :=
  match n.fetch key with
  | some s => .value n.id s
  | none => .absent n.id

/-- The reply on behalf of a node that is switched off. -/
def partitioned (node : Nat) : Reply := .unreachable node "partitioned"

/-- The reply on behalf of a node that did not answer in time. -/
def late (node timeout : Nat) : Reply := .unreachable node s!"no answer within {timeout}ms"

end Reply

/-- A node of a cluster, and whether it answers. -/
@[ext] structure Member where
  node : Node
  reachable : Bool

/-- Nodes side by side, and how many milliseconds each has for an answer. -/
@[ext] structure Cluster where
  members : List Member
  timeout : Nat

namespace Cluster

/-- A cluster of the given nodes, all switched on. -/
def ofNodes (nodes : List Node) (timeout : Nat) : Cluster := ⟨nodes.map (⟨·, true⟩), timeout⟩

/-- A cluster of fresh nodes with the given numbers and capacities. -/
def start (nodes : List (Nat × Nat)) (timeout : Nat) : Except StartFault Cluster :=
  (nodes.mapM fun (id, capacity) => Node.start id capacity).map (ofNodes · timeout)

/-- A cluster of a number of fresh nodes, numbered from zero on. -/
def startAll (count capacity timeout : Nat) : Except StartFault Cluster :=
  (Node.startAll count capacity).map (ofNodes · timeout)

/-- The numbers of the nodes, in their order. -/
def ids (c : Cluster) : List Nat := c.members.map (·.node.id)

/-- The number of nodes. -/
def size (c : Cluster) : Nat := c.members.length

/-- The position of the first member with a number. -/
def position? (c : Cluster) (id : Nat) : Option Nat := c.members.findIdx? (·.node.id == id)

/-- The first node with a number. -/
def node? (c : Cluster) (id : Nat) : Option Node := (c.members.find? (·.node.id == id)).map (·.node)

/-- Switches the first member with a number on or off; whether there is one. -/
def setReachable (c : Cluster) (id : Nat) (on : Bool) : Bool × Cluster :=
  match c.position? id with
  | none => (false, c)
  | some k => (true, { c with members := c.members.modify k fun m => { m with reachable := on } })

/-- A request to the node at a position; no answer where there is none. -/
def performAt (c : Cluster) (k : Nat) (op : Tracker.Op) : Option Tracker.Answer × Cluster :=
  match c.members[k]? with
  | none => (none, c)
  | some m =>
    let (a, n) := m.node.perform op
    (some a, { c with members := c.members.set k { m with node := n } })

/-- A request to the first node with a number; no answer where there is none. -/
def perform (c : Cluster) (id : Nat) (op : Tracker.Op) : Option Tracker.Answer × Cluster :=
  match c.position? id with
  | none => (none, c)
  | some k => c.performAt k op

end Cluster

end WindowedMean
