import WindowedMean.Cluster.FanOut
import WindowedMean.Config
import WindowedMean.Http.Call
import WindowedMean.Http.CrossOrigin
import WindowedMean.Ingestion.Group
import WindowedMean.ReduceLoop

/-! The whole program: one *lane* per node, and a reduce loop across them.

        producer → queue → node ⎫
        producer → queue → node ⎬ → reduce loop → latest readout
        submit  →  queue → node ⎭

    A lane is an ingestion, perhaps with a producer in front, and a switch that takes its node off
    the cluster. Time moves only while somebody waits for the next readout, and goes straight to the
    next thing that is due; a request is answered from the present state, and no worker has a turn
    meanwhile. Shutting down stops the producers, then the ingestions, each of which still hands over
    what it had accepted, and then the loop. -/

namespace WindowedMean

/-- One node with what feeds it. -/
structure Lane where
  ingestion : Ingestion
  producer : Option Producer
  reachable : Bool

namespace Lane

/-- The node of a lane. -/
def node (l : Lane) : Node := l.ingestion.node

/-- The worker goes on until it has nothing to do, and then the producer submits all that is due up
    to a time. -/
def advance (l : Lane) (time : Nat) : Lane :=
  match l.producer with
  | none => { l with ingestion := l.ingestion.settle }
  | some p =>
    let (p', i) := p.advance time l.ingestion
    { l with ingestion := i, producer := some p' }

/-- Ends the producer. -/
def stopProducer (l : Lane) : Lane := { l with producer := l.producer.map Producer.stop }

end Lane

/-- A running program: its lanes, the reduce loop, the wall clock, how much time a node has for an
    answer, and the time in milliseconds. `started` says that the tasks have had their first turn,
    `ended` that the program was shut down. -/
structure Service where
  lanes : List Lane
  loop : ReduceLoop
  clock : Clock
  timeout : Nat
  now : Nat
  started : Bool
  ended : Bool

namespace Service

/-- Starts a configured program. `streams` gives each node the stream that its producer draws from if
    there is no seed; without it there are no producers. -/
def start (c : Config) (clock : Clock) (streams : Option (Nat → Nat → UInt64)) :
    Except StartFault Service := do
  let nodes ← Node.startAll c.nodes c.windowCapacity
  let ingestions ← nodes.mapM fun n => Ingestion.startChecked n c.intake
  return {
    lanes := ingestions.map fun i =>
      { ingestion := i
        producer := streams.map fun outside => .start (c.producer i.node.id) (outside i.node.id)
        reachable := true }
    loop := .start c.reduceIntervalMs c.ideal
    clock := clock
    timeout := c.nodeTimeoutMs
    now := 0
    started := false
    ended := false }

/-- The nodes as a cluster. -/
def cluster (r : Service) : Cluster := ⟨r.lanes.map fun l => ⟨l.node, l.reachable⟩, r.timeout⟩

/-- The position of the lane with a node number. -/
def position? (r : Service) (id : Nat) : Option Nat := r.lanes.findIdx? (·.node.id == id)

/-- The lane with a node number. -/
def lane? (r : Service) (id : Nat) : Option Lane := r.lanes.find? (·.node.id == id)

/-- Changes the lane with a node number and answers; no answer where there is none. -/
def onLane {α : Type} (r : Service) (id : Nat) (f : Lane → α × Lane) : Option α × Service :=
  match r.position? id with
  | none => (none, r)
  | some k =>
    match r.lanes[k]? with
    | none => (none, r)
    | some l =>
      let (a, l') := f l
      (some a, { r with lanes := r.lanes.set k l' })

/-- Submits events to a node's queue; no answer where there is no such node. -/
def submit (r : Service) (id : Nat) (vs : List Int) :
    Option (List (Except IngestError Unit)) × Service :=
  r.onLane id fun l =>
    let (rs, i) := l.ingestion.submitAll vs
    (rs, { l with ingestion := i })

/-- A request straight to a node; no answer where there is no such node. -/
def performNode (r : Service) (id : Nat) (op : Tracker.Op) : Option Tracker.Answer × Service :=
  r.onLane id fun l =>
    let (a, i) := l.ingestion.performNode op
    (a, { l with ingestion := i })

/-- Switches a node on or off; whether there is such a node. -/
def setReachable (r : Service) (id : Nat) (on : Bool) : Bool × Service :=
  match r.onLane id fun l => ((), { l with reachable := on }) with
  | (some _, r') => (true, r')
  | (none, r') => (false, r')

/-- A node's view of itself. -/
def status? (r : Service) (id : Nat) : Option Status := (r.lane? id).map (·.node.status)

/-- Everybody goes on until all wait; time stands still. -/
def settle (r : Service) : Service :=
  { r with lanes := r.lanes.map (·.advance r.now), started := true }

/-- Waits for the next readout: time goes on to it, and what is due on the way is done. There is none
    after the end, or if the loop has no cycles. -/
def cycle (r : Service) : Option (Nat × Readout) × Service :=
  if r.ended then (none, r)
  else if !r.loop.runs then (none, if r.started then r else r.settle)
  else
    let time := r.loop.due
    let r' := { r with now := time }.settle
    let (readout, loop) := r'.loop.cycle (r'.cluster.collect meanKey r'.cluster.undelayed) (r.clock time)
    (some (time, readout), { r' with loop := loop })

/-- Shuts the program down. -/
def shutdown (r : Service) : Service :=
  let lanes := r.lanes.map Lane.stopProducer
  let stopped := Ingestion.stopAll (lanes.map (·.ingestion))
  { r with lanes := lanes.zipWith (fun l i => { l with ingestion := i }) stopped, ended := true }

/-! ### Answering requests -/

/-- The events that came back, in their order. -/
def refused (rs : List (Except IngestError Unit)) : List Int :=
  rs.filterMap fun
    | .ok _ => none
    | .error e => some e.value

/-- The response about a node that there is not. -/
def unknownNode (id : Nat) : Http.Response :=
  .ofJson 404 (.object [("error", .string s!"unknown node {id}")])

/-- Does what is asked and responds. -/
def answer (r : Service) : Http.Call → Http.Response × Service
  | .health => (.ofText 200 "ok", r)
  | .average =>
    match r.loop.latest with
    | some readout => (.ofJson 200 readout.json, r)
    | none => (.ofJson 503 (.object [("status", .string "pending")]), r)
  | .submit s =>
    match r.submit s.node s.values with
    | (none, r') => (unknownNode s.node, r')
    | (some rs, r') =>
      (.ofJson 202 (.object [("accepted", .nat (rs.length - (refused rs).length)),
        ("rejected", .array ((refused rs).map .int))]), r')
  | .status id =>
    match r.status? id with
    | some s => (.ofJson 200 s.json, r)
    | none => (unknownNode id, r)

/-- Answers a request. -/
def respond (r : Service) (q : Http.Request) : Http.Response × Service :=
  if Http.isPreflight q then
    let allow := (Http.Route.ofPath? (Http.Route.path q.target)).map fun route => ("allow", route.allow)
    ((⟨200, Http.preflightHeaders q ++ allow.toList, .empty⟩ : Http.Response).measured, r)
  else
    let (a, r') :=
      match q.call with
      | .ok call => r.answer call
      | .error e => (e.response, r)
    let a := { a with headers := a.headers ++ Http.originHeaders q }.measured
    (if q.method = "HEAD" then a.withoutBody else a, r')

end Service

end WindowedMean
