import WindowedMean.Bounds

/-! A *window* keeps the most recent events of a stream, at most `capacity` of them.

    Events enter at the end; past the capacity the oldest resident leaves first:

        oldest … newest  ←  v        displaced: the oldest, if the window was full

    What leaves is handed back at once (`enqueue`, `enqueueAll`, `tryAll`) or *parked* in a second
    queue until somebody polls it (`offerAll`, `poll`). A batch may be longer than the window, and
    then displaces members of its own.

    `tryAll` asks before it changes anything: it shows the caller the events that would leave, and
    makes the change only if the caller admits them. -/

namespace WindowedMean

/-- A bounded buffer of events, oldest first, and the displaced events nobody has polled yet. -/
@[ext] structure Window where
  capacity : Nat
  residents : List Int
  parked : List Int
  capacity_pos : 0 < capacity
  length_le : residents.length ≤ capacity

namespace Window

/-- An empty window. -/
def empty (capacity : Nat) (h : 0 < capacity) : Window := ⟨capacity, [], [], h, Nat.zero_le _⟩

/-- An empty window; a capacity of zero is no window. -/
def ofCapacity? (capacity : Nat) : Option Window :=
  if h : 0 < capacity then some (empty capacity h) else none

/-- What is said about a capacity of zero. -/
def capacityMessage : String := "sliding window capacity must be positive"

/-- Oldest events leave until at most `capacity` remain: what left, and what remains. -/
def shed (capacity : Nat) : List Int → List Int × List Int
  | [] => ([], [])
  | old :: rest =>
    if capacity < (old :: rest).length then
      let (out, kept) := shed capacity rest
      (old :: out, kept)
    else ([], old :: rest)

theorem length_shed_le (capacity : Nat) (buf : List Int) :
    (shed capacity buf).2.length ≤ capacity := by
  induction buf with
  | nil => exact Nat.zero_le _
  | cons old rest ih =>
    unfold shed
    split
    · exact ih
    · exact Nat.le_of_not_lt ‹_›

/-- Events enter one by one, each shedding the excess: what left in all, and what remains. -/
def pushAll (capacity : Nat) : List Int → List Int → List Int × List Int
  | buf, [] => ([], buf)
  | buf, v :: vs =>
    let (out, kept) := shed capacity (buf ++ [v])
    let (more, last) := pushAll capacity kept vs
    (out ++ more, last)

theorem length_pushAll_le {capacity : Nat} {buf : List Int} (h : buf.length ≤ capacity)
    (vs : List Int) : (pushAll capacity buf vs).2.length ≤ capacity := by
  induction vs generalizing buf with
  | nil => exact h
  | cons v vs ih => exact ih (length_shed_le capacity (buf ++ [v]))

/-- The window after a batch has entered. -/
def extend (w : Window) (vs : List Int) : Window :=
  { w with
    residents := (pushAll w.capacity w.residents vs).2
    length_le := length_pushAll_le w.length_le vs }

/-- The events that leave when a batch enters, oldest first. -/
def displaced (w : Window) (vs : List Int) : List Int := (pushAll w.capacity w.residents vs).1

/-- One event enters; the event it displaced, if any. -/
def enqueue (w : Window) (v : Int) : Option Int × Window :=
  ((w.displaced [v]).getLast?, w.extend [v])

/-- A batch enters; all events it displaced, oldest first. -/
def enqueueAll (w : Window) (vs : List Int) : List Int × Window := (w.displaced vs, w.extend vs)

/-- A batch enters and what it displaced is parked. -/
def offerAll (w : Window) (vs : List Int) : Window :=
  { w.extend vs with parked := w.parked ++ w.displaced vs }

/-- One event enters and what it displaced is parked. -/
def offer (w : Window) (v : Int) : Window := w.offerAll [v]

/-- The oldest parked event leaves the parking queue. -/
def poll (w : Window) : Option Int × Window :=
  match w.parked with
  | [] => (none, w)
  | v :: vs => (some v, { w with parked := vs })

/-- All parked events leave the parking queue, oldest first. -/
def drain (w : Window) : List Int × Window := (w.parked, { w with parked := [] })

/-- The events that would leave, read off without a change: the oldest of residents and batch in
    excess of the capacity. -/
def forecast (w : Window) (vs : List Int) : List Int :=
  (w.residents ++ vs).take (w.residents.length + vs.length - w.capacity)

/-- A batch enters only if `check` admits the events that would leave. What `check` made of them
    comes back with them; a refusal comes back as it is and nothing has changed. -/
def tryAll {ε α : Type} (w : Window) (vs : List Int) (check : List Int → Except ε α) :
    Except ε (α × List Int × Window) :=
  match check (w.forecast vs) with
  | .error e => .error e
  | .ok a => .ok (a, w.forecast vs, w.extend vs)

/-- A request to a window. -/
inductive Op where
  | enqueue (v : Int)
  | enqueueAll (vs : List Int)
  | offer (v : Int)
  | offerAll (vs : List Int)
  | poll
  | drain
  | tryAll (vs : List Int) (check : List Int → Bool)

/-- What a window answers: one event or none, a list of events, or a refusal with the events that
    would have left. -/
inductive Answer where
  | event (v : Option Int)
  | events (vs : List Int)
  | done
  | evicted (vs : List Int)
  | refused (vs : List Int)
  deriving DecidableEq, Repr

/-- One request, answered. -/
def perform (w : Window) : Op → Answer × Window
  | .enqueue v => let (old, w') := w.enqueue v; (.event old, w')
  | .enqueueAll vs => let (out, w') := w.enqueueAll vs; (.events out, w')
  | .offer v => (.done, w.offer v)
  | .offerAll vs => (.done, w.offerAll vs)
  | .poll => let (v, w') := w.poll; (.event v, w')
  | .drain => let (vs, w') := w.drain; (.events vs, w')
  | .tryAll vs check =>
    match w.tryAll vs (fun out => if check out then .ok () else .error out) with
    | .ok (_, out, w') => (.evicted out, w')
    | .error out => (.refused out, w)

end Window

end WindowedMean
