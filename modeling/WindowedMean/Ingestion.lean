import WindowedMean.Counters
import WindowedMean.Start

/-! An *ingestion* is a bounded queue in front of a node, and the worker that empties it in batches.

    Callers put events into the queue; the worker hands them to the node, oldest first:

        submit →  queue  → batch → node
                 refused if full or closed

    The worker goes through three phases. It *serves* until it notices that it was asked to stop, or
    that nobody can submit any more; from then on the queue is closed and it *drains* what was
    accepted; with the queue empty it has *finished*. It notices only when it gets a turn, so events
    are accepted between the request and the turn. One turn hands over at most one batch. A worker
    whose batches would be larger than any memory fails on its first turn: it has finished, and the
    queue is lost.

    A caller who would rather wait than be refused stands in a line. A place that becomes free is
    given to the caller who has waited longest, even before that caller looks again:

        queue       granted          free
        ├───────────┼────────────────┼──────────┤  places

    What has been given away is out of reach for everybody else. So a newcomer may be refused though
    there is room in the queue; it gets no place before everybody in the line has one.

    Callers who wait and the worker take care of each other: a run of turns is bounded (`shift`), and
    so is a run of submissions. Every submission and every batch is counted, and a batch the node
    refuses is dropped as a whole. -/

namespace WindowedMean

/-- How large the queue and the batches may be. A size of zero counts as one. -/
structure Intake where
  queueCapacity : Nat
  batchSize : Nat
  deriving DecidableEq, Repr

namespace Intake

/-- The sizes used where nothing else is said. -/
def standard : Intake := ⟨1024, 64⟩

/-- The number of places in the queue. -/
def places (c : Intake) : Nat := max 1 c.queueCapacity

/-- The greatest number of events in a batch. -/
def batch (c : Intake) : Nat := max 1 c.batchSize

/-- The number of events, eight bytes each, that fit into half of the address space. -/
def batchLimit : Nat := 0xfffffffffffffff

/-- A batch is too large for any memory. -/
def excessive (c : Intake) : Bool := batchLimit < c.batch

theorem places_pos (c : Intake) : 0 < c.places := Nat.lt_of_lt_of_le Nat.one_pos (Nat.le_max_left ..)

theorem batch_pos (c : Intake) : 0 < c.batch := Nat.lt_of_lt_of_le Nat.one_pos (Nat.le_max_left ..)

end Intake

/-- Why an event was not accepted. It comes back with the refusal. -/
inductive IngestError where
  | rejected (value : Int)
  | closed (value : Int)
  deriving DecidableEq, Repr

namespace IngestError

/-- The event that was not accepted. -/
def value : IngestError → Int
  | .rejected v => v
  | .closed v => v

/-- What an operator reads about the refusal. -/
def message : IngestError → String
  | .rejected v => s!"ingestion rejected value {v}: queue is full"
  | .closed v => s!"ingestion closed: value {v} not accepted"

end IngestError

/-- What the worker is at. -/
inductive Phase where
  | serving
  | draining
  | finished
  deriving DecidableEq, Repr

/-- A queue, its worker and the node behind them, and the events of those who wait for a place,
    oldest first. `signalled` says that the worker was asked to stop, `abandoned` that nobody can
    submit any more but those who wait. -/
@[ext] structure Ingestion where
  intake : Intake
  node : Node
  queue : List Int
  waiting : List Int
  phase : Phase
  signalled : Bool
  abandoned : Bool
  counters : NodeCounters
  length_le : queue.length ≤ intake.places

namespace Ingestion

/-- An empty queue in front of a node, and its worker. -/
def start (node : Node) (intake : Intake) : Ingestion :=
  ⟨intake, node, [], [], .serving, false, false, .zero, Nat.zero_le _⟩

/-- An empty queue in front of a node, if there can be one with so many places. -/
def startChecked (node : Node) (intake : Intake) : Except StartFault Ingestion :=
  if StartFault.placesLimit < intake.places then .error .tooManyPlaces else .ok (start node intake)

/-! ### Places -/

/-- How many of those who wait have been given a place: the oldest of them, as far as there is room
    in the queue. -/
def granted (i : Ingestion) : Nat := min i.waiting.length (i.intake.places - i.queue.length)

/-- The number of places that are taken or have been given away. -/
def occupied (i : Ingestion) : Nat := i.queue.length + i.granted

theorem occupied_le (i : Ingestion) : i.occupied ≤ i.intake.places := by
  have := i.length_le
  unfold occupied granted
  omega

/-- Nothing has been given away where nobody waits. -/
theorem occupied_of_waiting {i : Ingestion} (h : i.waiting = []) : i.occupied = i.queue.length := by
  rw [occupied, granted, h, List.length_nil, Nat.zero_min, Nat.add_zero]

/-- What is left over when everybody in the line has a place is free for a newcomer. -/
theorem granted_of_place {i : Ingestion} (h : i.occupied < i.intake.places) :
    i.granted = i.waiting.length := by
  unfold occupied granted at *
  omega

theorem room_of_occupied {i : Ingestion} (h : i.occupied < i.intake.places) :
    i.queue.length < i.intake.places := Nat.lt_of_le_of_lt (Nat.le_add_right ..) h

theorem room_of_granted {i : Ingestion} {k : Nat} (h : k < i.granted) :
    i.queue.length < i.intake.places := by
  unfold granted at h
  omega

/-! ### Submitting -/

/-- Counts an accepted event and puts it at the end of the queue. -/
def accept (i : Ingestion) (v : Int) (h : i.queue.length < i.intake.places) : Ingestion :=
  { i with
    queue := i.queue ++ [v]
    counters := { i.counters with submitted := i.counters.submitted.bump 1 }
    length_le := by
      rw [List.length_append]
      exact h }

/-- Counts a refused event. -/
def countRefusal (i : Ingestion) : Ingestion :=
  { i with counters := { i.counters with rejected := i.counters.rejected.bump 1 } }

/-- Accepts an event or refuses it; never waits. -/
def submit (i : Ingestion) (v : Int) : Except IngestError Unit × Ingestion :=
  if i.phase ≠ .serving then (.error (.closed v), i.countRefusal)
  else if h : i.occupied < i.intake.places then (.ok (), i.accept v (room_of_occupied h))
  else (.error (.rejected v), i.countRefusal)

/-- A caller joins the line. -/
def join (i : Ingestion) (v : Int) : Ingestion := { i with waiting := i.waiting ++ [v] }

/-- The caller at a position leaves the line. A place that it had been given passes on. -/
def leave (i : Ingestion) (k : Nat) : Ingestion := { i with waiting := i.waiting.eraseIdx k }

/-- Tries to submit for a caller who is willing to wait: no answer means that there is no place, and
    the caller stands in the line. -/
def attempt (i : Ingestion) (v : Int) : Option (Except IngestError Unit) × Ingestion :=
  if i.phase ≠ .serving then (some (.error (.closed v)), i.countRefusal)
  else if h : i.occupied < i.intake.places then (some (.ok ()), i.accept v (room_of_occupied h))
  else (none, i.join v)

/-- The caller at a position in the line looks again, and leaves it with an answer: it has been given
    a place, or the queue is closed, even if a place had been given to it before. No answer means that
    it has to wait on. -/
def retry (i : Ingestion) (k : Nat) : Option (Except IngestError Unit) × Ingestion :=
  match i.waiting[k]? with
  | none => (none, i)
  | some v =>
    if i.phase ≠ .serving then (some (.error (.closed v)), (i.leave k).countRefusal)
    else if h : k < i.granted then
      (some (.ok ()), (i.leave k).accept v (room_of_granted (i := i) h))
    else (none, i)

/-! ### The worker -/

/-- Events move from the queue to the buffer until the buffer holds `size` or the queue is empty. -/
def gather (size : Nat) : List Int → List Int → List Int × List Int
  | buffer, [] => (buffer, [])
  | buffer, v :: queue =>
    if size ≤ (buffer ++ [v]).length then (buffer ++ [v], queue) else gather size (buffer ++ [v]) queue

theorem length_gather_le (size : Nat) (buffer queue : List Int) :
    (gather size buffer queue).2.length ≤ queue.length := by
  fun_induction gather size buffer queue <;> simp only [List.length_cons, List.length_nil] <;> omega

/-- Hands a batch to the node and counts what became of it. -/
def apply (i : Ingestion) (batch : List Int) : Except TrackerError Outcome × Ingestion :=
  match i.node.process batch with
  | (.ok o, n) =>
    (.ok o, { i with
      node := n
      counters := { i.counters with
        processed := i.counters.processed.bump o.processed
        evicted := i.counters.evicted.bump o.evicted } })
  | (.error e, n) =>
    (.error e, { i with
      node := n
      counters := { i.counters with failures := i.counters.failures.bump 1 } })

/-- A batch that was handed over, and what the node made of it. -/
structure Handover where
  batch : List Int
  result : Except TrackerError Outcome

/-- One turn of the worker: a change of phase, a batch, or nothing to do. -/
def turn (i : Ingestion) : Option Handover × Ingestion :=
  match i.phase with
  | .finished => (none, i)
  | .serving =>
    if i.intake.excessive then
      (none, { i with queue := [], phase := .finished, length_le := Nat.zero_le _ })
    else if i.signalled then (none, { i with phase := .draining })
    else
      match h : i.queue with
      | [] => (none, if i.abandoned ∧ i.waiting = [] then { i with phase := .draining } else i)
      | first :: later =>
        let batch := first :: later.take (i.intake.batch - 1)
        let rest := later.drop (i.intake.batch - 1)
        let (r, i') := { i with
          queue := rest
          length_le := by
            have := i.length_le
            simp only [h, List.length_cons] at this
            simp only [rest, List.length_drop]
            omega : Ingestion }.apply batch
        (some ⟨batch, r⟩, i')
  | .draining =>
    match h : gather i.intake.batch [] i.queue with
    | ([], _) => (none, { i with phase := .finished })
    | (first :: later, rest) =>
      let (r, i') := { i with
        queue := rest
        length_le := by
          have h₁ := i.length_le
          have h₂ := length_gather_le i.intake.batch [] i.queue
          simp only [h] at h₂
          omega : Ingestion }.apply (first :: later)
      (some ⟨first :: later, r⟩, i')

/-- Asks the worker to stop. -/
def signal (i : Ingestion) : Ingestion := { i with signalled := true }

/-- Nobody can submit any more but those who wait. -/
def abandon (i : Ingestion) : Ingestion := { i with abandoned := true }

/-- A request straight to the node, past the queue. -/
def performNode (i : Ingestion) (op : Tracker.Op) : Tracker.Answer × Ingestion :=
  let (a, n) := i.node.perform op
  (a, { i with node := n })

/-! ### Runs -/

/-- One thing that happens to an ingestion. -/
inductive Step where
  | submit (v : Int)
  | attempt (v : Int)
  | retry (k : Nat)
  | leave (k : Nat)
  | turn
  | signal
  | abandon
  deriving DecidableEq, Repr

/-- What a step brought about. -/
inductive Event where
  | accepted (v : Int)
  | refused (e : IngestError)
  | waiting (v : Int)
  | handed (h : Handover)
  | nothing

/-- One step. -/
def step (i : Ingestion) : Step → Event × Ingestion
  | .submit v =>
    match i.submit v with
    | (.ok (), i') => (.accepted v, i')
    | (.error e, i') => (.refused e, i')
  | .attempt v =>
    match i.attempt v with
    | (some (.ok ()), i') => (.accepted v, i')
    | (some (.error e), i') => (.refused e, i')
    | (none, i') => (.waiting v, i')
  | .retry k =>
    match i.waiting[k]? with
    | none => (.nothing, i)
    | some v =>
      match i.retry k with
      | (some (.ok ()), i') => (.accepted v, i')
      | (some (.error e), i') => (.refused e, i')
      | (none, i') => (.waiting v, i')
  | .leave k => (.nothing, i.leave k)
  | .turn =>
    match i.turn with
    | (some h, i') => (.handed h, i')
    | (none, i') => (.nothing, i')
  | .signal => (.nothing, i.signal)
  | .abandon => (.nothing, i.abandon)

/-- A row of steps: what each brought about, and the end. -/
def run (i : Ingestion) : List Step → List Event × Ingestion
  | [] => ([], i)
  | s :: steps =>
    let (e, i') := i.step s
    let (es, i'') := i'.run steps
    (e :: es, i'')

/-- A number of turns that lets the worker do all it can: each batch takes an event at least, and
    there are two changes of phase. -/
def enough (i : Ingestion) : Nat := i.queue.length + 2

/-- The worker goes on until it has nothing to do. -/
def settle (i : Ingestion) : Ingestion := (i.run (List.replicate i.enough .turn)).2

/-- Asks the worker to stop and waits until it has finished. -/
def stop (i : Ingestion) : Ingestion := i.signal.settle

/-! ### Taking turns with those who wait -/

/-- How much a caller or a worker does before the other one may go on. -/
def shift : Nat := 128

/-- What a turn counts in a shift: a batch counts once, and while the worker drains each event does. -/
def turnCost (i : Ingestion) : Nat :=
  match i.phase with
  | .draining => max 1 (min i.intake.batch i.queue.length)
  | _ => 1

theorem turnCost_pos (i : Ingestion) : 0 < i.turnCost := by
  unfold turnCost
  split <;> omega

/-- The worker works for as long as its shift lasts. -/
def work (left : Nat) (i : Ingestion) : Ingestion :=
  if i.turnCost ≤ left then work (left - i.turnCost) i.turn.2 else i
  termination_by left
  decreasing_by
    have := i.turnCost_pos
    omega

/-- The caller who stands in the line behind `ahead` others waits for an answer. Each time the worker
    has worked a shift, the first in the line looks again. -/
def await (v : Int) : Nat → Ingestion → Except IngestError Unit × Ingestion
  | 0, i =>
    match (i.work shift).retry 0 with
    | (some r, i') => (r, i')
    | (none, i') => (.error (.rejected v), i')
  | ahead + 1, i => await v ahead ((i.work shift).retry 0).2

/-- Submits an event and waits for a place if there is none. What is left of the caller's shift comes
    back; whoever had to wait begins a new one. -/
def attemptOrAwait (i : Ingestion) (left : Nat) (v : Int) :
    Except IngestError Unit × Nat × Ingestion :=
  match i.attempt v with
  | (some r, i') => (r, left - 1, i')
  | (none, i') =>
    let (r, i'') := await v i.waiting.length i'
    (r, shift - 1, i'')

/-- The same for a caller who may have nothing left of its shift; then the worker works a shift
    first. -/
def submitWaiting (i : Ingestion) (left : Nat) (v : Int) :
    Except IngestError Unit × Nat × Ingestion :=
  if left = 0 then (i.work shift).attemptOrAwait shift v else i.attemptOrAwait left v

/-- Submits a list of events, none of which waits. -/
def submitAll (i : Ingestion) : List Int → List (Except IngestError Unit) × Ingestion
  | [] => ([], i)
  | v :: vs =>
    let (r, i') := i.submit v
    let (rs, i'') := i'.submitAll vs
    (r :: rs, i'')

/-- Submits a list of events, each of which waits for a place. -/
def submitAllWaiting (i : Ingestion) (left : Nat) :
    List Int → List (Except IngestError Unit) × Nat × Ingestion
  | [] => ([], left, i)
  | v :: vs =>
    let (r, left', i') := i.submitWaiting left v
    let (rs, left'', i'') := i'.submitAllWaiting left' vs
    (r :: rs, left'', i'')

end Ingestion

end WindowedMean
