import WindowedMean.Proofs.Recency

/-! All that ever happened to a window.

    A *history* sets down, next to the window, what was let in, what was displaced and in which way
    it left, and what was polled. It goes by the requests and the answers, and for an offer, which
    answers nothing, by what is new in the parking queue. Then, however requests are mixed,

        admitted         =  displaced ++ residents
        residents        =  the last `capacity` of admitted
        polled ++ parked =  those of the displaced that were parked

    and a batch may be cut into smaller ones, down to single events, without a trace.

    There are only two kinds of request. One lets a batch in, and what it displaces leaves in one of
    two ways (`History.enter`); the other takes the oldest parked events away (`History.release`). A
    refused batch is the second kind, with nothing taken away. -/

namespace WindowedMean.Window

/-- How a displaced event leaves: handed back with an answer, or parked. -/
inductive Way where
  | returned
  | parked
  deriving DecidableEq, Repr

namespace Op

/-- What a request lets in, going by its answer. -/
def admitted : Op → Answer → List Int
  | .enqueue v, _ => [v]
  | .enqueueAll vs, _ => vs
  | .offer v, _ => [v]
  | .offerAll vs, _ => vs
  | .tryAll vs _, .evicted _ => vs
  | _, _ => []

/-- What an answer hands back of the events that the request displaced. -/
def returned : Op → Answer → List Int
  | .enqueue _, .event v => v.toList
  | .enqueueAll _, .events vs => vs
  | .tryAll _ _, .evicted vs => vs
  | _, _ => []

/-- What an offer adds to the parking queue. -/
def parked (old new : Window) : Op → List Int
  | .offer _ => new.parked.drop old.parked.length
  | .offerAll _ => new.parked.drop old.parked.length
  | _ => []

/-- What an answer hands back of the parked events. -/
def polled : Op → Answer → List Int
  | .poll, .event v => v.toList
  | .drain, .events vs => vs
  | _, _ => []

/-- The request that lets in one event. -/
def single : Way → Int → Op
  | .returned => .enqueue
  | .parked => .offer

/-- The request that lets in a batch. -/
def batch : Way → List Int → Op
  | .returned => .enqueueAll
  | .parked => .offerAll

end Op

/-- A window, and all that happened to it. -/
@[ext] structure History where
  window : Window
  admitted : List Int
  displaced : List (Int × Way)
  polled : List Int

/-- No more than one event makes way for one event, so `enqueue` hands back all there are. -/
theorem toList_enqueue (w : Window) (v : Int) : (w.enqueue v).1.toList = w.displaced [v] := by
  have hlength : (w.displaced [v]).length ≤ 1 := by
    have := w.length_le
    rw [displaced_eq, List.rdrop, List.length_take, List.length_append, List.length_singleton]
    omega
  change (w.displaced [v]).getLast?.toList = _
  match w.displaced [v], hlength with
  | [], _ => rfl
  | [old], _ => rfl

theorem displaced_append_offerAll (w : Window) (a b : List Int) :
    w.displaced a ++ (w.offerAll a).displaced b = w.displaced (a ++ b) :=
  w.displaced_append a b

theorem offerAll_offerAll (w : Window) (a b : List Int) :
    (w.offerAll a).offerAll b = w.offerAll (a ++ b) := by
  have hresidents := congrArg residents (w.extend_extend a b)
  refine Window.ext rfl hresidents ?_
  change w.parked ++ w.displaced a ++ (w.offerAll a).displaced b = w.parked ++ w.displaced (a ++ b)
  rw [List.append_assoc, displaced_append_offerAll]

namespace History
variable {h : History}

/-- An empty window to which nothing has happened. -/
def start (capacity : Nat) (hc : 0 < capacity) : History := ⟨.empty capacity hc, [], [], []⟩

/-- One request, set down with its answer. -/
def perform (h : History) (op : Op) : History :=
  let (answer, w) := h.window.perform op
  { window := w
    admitted := h.admitted ++ op.admitted answer
    displaced := h.displaced ++ (op.returned answer).map (·, .returned) ++
      (op.parked h.window w).map (·, .parked)
    polled := h.polled ++ op.polled answer }

/-- A row of requests. -/
def run (h : History) (ops : List Op) : History := ops.foldl perform h

/-! ### The two kinds of request -/

/-- A batch is let in, and what it displaces leaves in the given way. -/
def enter (h : History) (way : Way) (vs : List Int) : History where
  window :=
    match way with
    | .returned => h.window.extend vs
    | .parked => h.window.offerAll vs
  admitted := h.admitted ++ vs
  displaced := h.displaced ++ (h.window.displaced vs).map (·, way)
  polled := h.polled

/-- The oldest parked events are taken away. -/
def release (h : History) (n : Nat) : History :=
  { h with
    window := { h.window with parked := h.window.parked.drop n }
    polled := h.polled ++ h.window.parked.take n }

theorem release_zero (h : History) : h.release 0 = h := by
  simp [release]

theorem perform_enqueue (h : History) (v : Int) :
    h.perform (.enqueue v) = h.enter .returned [v] := by
  have hv := h.window.toList_enqueue v
  simp only [enqueue] at hv
  refine History.ext rfl rfl ?_ (List.append_nil _)
  simp [perform, Window.perform, Op.returned, Op.parked, enter, enqueue, hv]

theorem perform_enqueueAll (h : History) (vs : List Int) :
    h.perform (.enqueueAll vs) = h.enter .returned vs :=
  History.ext rfl rfl (List.append_nil _) (List.append_nil _)

theorem perform_offerAll (h : History) (vs : List Int) :
    h.perform (.offerAll vs) = h.enter .parked vs := by
  refine History.ext rfl rfl ?_ (List.append_nil _)
  simp [perform, Window.perform, Op.returned, Op.parked, enter, offerAll]

theorem perform_offer (h : History) (v : Int) : h.perform (.offer v) = h.enter .parked [v] :=
  perform_offerAll h [v]

theorem perform_single (h : History) (way : Way) (v : Int) :
    h.perform (.single way v) = h.enter way [v] := by
  cases way with
  | returned => exact perform_enqueue h v
  | parked => exact perform_offer h v

theorem perform_batch (h : History) (way : Way) (vs : List Int) :
    h.perform (.batch way vs) = h.enter way vs := by
  cases way with
  | returned => exact perform_enqueueAll h vs
  | parked => exact perform_offerAll h vs

theorem perform_tryAll (h : History) (vs : List Int) (check : List Int → Bool) :
    h.perform (.tryAll vs check) =
      if check (h.window.displaced vs) then h.enter .returned vs else h := by
  by_cases hc : check (h.window.displaced vs)
  · simp [perform, Window.perform, tryAll, forecast_eq_displaced, hc, Op.admitted, Op.returned,
      Op.parked, Op.polled, enter]
  · simp [perform, Window.perform, tryAll, forecast_eq_displaced, hc, Op.admitted, Op.returned,
      Op.parked, Op.polled]

theorem perform_poll (h : History) : h.perform .poll = h.release 1 := by
  cases hp : h.window.parked with
  | nil =>
    refine History.ext (Window.ext ?_ ?_ ?_) ?_ ?_ ?_ <;>
      simp [perform, Window.perform, poll, hp, Op.admitted, Op.returned, Op.parked, Op.polled, release]
  | cons v vs =>
    simp [perform, Window.perform, poll, hp, Op.admitted, Op.returned, Op.parked, Op.polled, release]

theorem perform_drain (h : History) : h.perform .drain = h.release h.window.parked.length := by
  simp [perform, Window.perform, drain, Op.admitted, Op.returned, Op.parked, Op.polled, release]

/-- Whatever is requested, a batch is let in or parked events are taken away. -/
theorem perform_cases (h : History) (op : Op) :
    (∃ way vs, h.perform op = h.enter way vs) ∨ ∃ n, h.perform op = h.release n := by
  cases op with
  | enqueue v => exact Or.inl ⟨_, _, perform_enqueue h v⟩
  | enqueueAll vs => exact Or.inl ⟨_, _, perform_enqueueAll h vs⟩
  | offer v => exact Or.inl ⟨_, _, perform_offer h v⟩
  | offerAll vs => exact Or.inl ⟨_, _, perform_offerAll h vs⟩
  | poll => exact Or.inr ⟨_, perform_poll h⟩
  | drain => exact Or.inr ⟨_, perform_drain h⟩
  | tryAll vs check =>
    rw [perform_tryAll]
    by_cases hc : check (h.window.displaced vs)
    · rw [if_pos hc]
      exact Or.inl ⟨_, _, rfl⟩
    · rw [if_neg hc]
      exact Or.inr ⟨0, (release_zero h).symm⟩

/-! ### First in, first out -/

/-- Those of the displaced events that were parked. -/
def parkedEver (h : History) : List Int := (h.displaced.filter (·.2 = .parked)).map (·.1)

/-- What every request keeps. -/
structure Fifo (h : History) (capacity : Nat) : Prop where
  capacity_eq : h.window.capacity = capacity
  admitted_eq : h.admitted = h.displaced.map (·.1) ++ h.window.residents
  residents_eq : h.window.residents = h.admitted.rtake capacity
  parked_eq : h.polled ++ h.window.parked = h.parkedEver

theorem fifo_start (capacity : Nat) (hc : 0 < capacity) : (start capacity hc).Fifo capacity :=
  ⟨rfl, rfl, (List.rtake_nil capacity).symm, rfl⟩

theorem residents_enter (h : History) (way : Way) (vs : List Int) :
    (h.enter way vs).window.residents = (h.window.residents ++ vs).rtake h.window.capacity := by
  cases way with
  | returned => exact h.window.residents_extend vs
  | parked => exact h.window.residents_extend vs

theorem capacity_enter (h : History) (way : Way) (vs : List Int) :
    (h.enter way vs).window.capacity = h.window.capacity := by
  cases way <;> rfl

theorem parkedEver_enter (h : History) (way : Way) (vs : List Int) :
    (h.enter way vs).parkedEver = h.parkedEver ++
      match way with
      | .returned => []
      | .parked => h.window.displaced vs := by
  cases way <;> simp [parkedEver, enter, List.filter_map, Function.comp_def]

theorem Fifo.enter {capacity : Nat} (hf : h.Fifo capacity) (way : Way) (vs : List Int) :
    (h.enter way vs).Fifo capacity := by
  obtain ⟨hcapacity, hadmitted, hresidents, hparked⟩ := hf
  refine ⟨?_, ?_, ?_, ?_⟩
  · rw [capacity_enter, hcapacity]
  · have hcut := h.window.displaced_append_residents vs
    rw [residents_extend] at hcut
    rw [residents_enter]
    simp [History.enter, Function.comp_def, hadmitted, hcut]
  · rw [residents_enter, hcapacity, hresidents, rtake_rtake_append]
    rfl
  · rw [parkedEver_enter, ← hparked]
    cases way with
    | returned => exact (List.append_nil _).symm
    | parked => exact (List.append_assoc ..).symm

theorem Fifo.length_displaced {capacity : Nat} (hf : h.Fifo capacity) :
    h.displaced.length = h.admitted.length - min capacity h.admitted.length := by
  have hlength := congrArg List.length hf.admitted_eq
  have hkept := congrArg List.length hf.residents_eq
  rw [length_rtake] at hkept
  rw [List.length_append, List.length_map, hkept] at hlength
  omega

theorem Fifo.release {capacity : Nat} (hf : h.Fifo capacity) (n : Nat) :
    (h.release n).Fifo capacity := by
  obtain ⟨hcapacity, hadmitted, hresidents, hparked⟩ := hf
  refine ⟨hcapacity, hadmitted, hresidents, ?_⟩
  simp only [History.release, List.append_assoc, List.take_append_drop]
  exact hparked

theorem Fifo.perform {capacity : Nat} (hf : h.Fifo capacity) (op : Op) :
    (h.perform op).Fifo capacity := by
  rcases h.perform_cases op with ⟨way, vs, hp⟩ | ⟨n, hp⟩
  · rw [hp]
    exact hf.enter way vs
  · rw [hp]
    exact hf.release n

theorem Fifo.run {capacity : Nat} : ∀ (ops : List Op) {h : History}, h.Fifo capacity →
    (h.run ops).Fifo capacity
  | [], _, hf => hf
  | op :: ops, _, hf => Fifo.run ops (hf.perform op)

/-! ### Cutting batches -/

theorem enter_nil (h : History) (way : Way) : h.enter way [] = h := by
  have hout : h.window.displaced [] = [] := rfl
  have hin : h.window.extend [] = h.window := rfl
  refine History.ext ?_ (List.append_nil _) ?_ rfl
  · cases way with
    | returned => rfl
    | parked => exact Window.ext rfl rfl (List.append_nil _)
  · simp [enter, hout]

/-- A batch after a batch is both at once. -/
theorem enter_enter (h : History) (way : Way) (a b : List Int) :
    (h.enter way a).enter way b = h.enter way (a ++ b) := by
  cases way with
  | returned =>
    refine History.ext (h.window.extend_extend a b) (List.append_assoc ..) ?_ rfl
    simp [enter, ← h.window.displaced_append a b]
  | parked =>
    refine History.ext (h.window.offerAll_offerAll a b) (List.append_assoc ..) ?_ rfl
    simp [enter, ← h.window.displaced_append_offerAll a b]

/-- Batches one after the other are one batch, whatever the requests that let them in. -/
theorem run_map_enter {α : Type} (request : α → Op) (events : α → List Int) (way : Way)
    (hr : ∀ (h : History) (x : α), h.perform (request x) = h.enter way (events x)) :
    ∀ (xs : List α) (h : History), h.run (xs.map request) = h.enter way (xs.flatMap events)
  | [], h => (enter_nil h way).symm
  | x :: xs, h => by
    rw [List.flatMap_cons, ← enter_enter, ← hr]
    exact run_map_enter request events way hr xs _

theorem run_append (h : History) (ops later : List Op) :
    h.run (ops ++ later) = (h.run ops).run later := List.foldl_append

theorem run_singles (h : History) (way : Way) (vs : List Int) :
    h.run (vs.map (.single way)) = h.perform (.batch way vs) := by
  have hrun := run_map_enter (.single way) ([·]) way (fun h v => perform_single h way v) vs h
  rw [hrun, perform_batch]
  simp

theorem run_batches (h : History) (way : Way) (vss : List (List Int)) :
    h.run (vss.map (.batch way)) = h.perform (.batch way vss.flatten) := by
  have hrun := run_map_enter (.batch way) id way (fun h vs => perform_batch h way vs) vss h
  rw [hrun, perform_batch]
  simp

/-- First in, first out, over any row of requests to an empty window: what was let in is what was
    displaced and then what is still there, and the latter is the end of it; what was polled and then
    what is still parked is what was ever parked. One event displaces no more than `enqueue` hands
    back. A batch may be cut into single events or smaller batches, and nothing is different, then or
    later. -/
theorem fifo_law {capacity : Nat} (hc : 0 < capacity) (ops : List Op) :
    let h := (start capacity hc).run ops
    h.admitted = h.displaced.map (·.1) ++ h.window.residents ∧
    h.window.residents = h.admitted.rtake capacity ∧
    h.displaced.length = h.admitted.length - min capacity h.admitted.length ∧
    h.polled ++ h.window.parked = (h.displaced.filter (·.2 = .parked)).map (·.1) ∧
    (∀ v, (h.window.enqueue v).1.toList = h.window.displaced [v]) ∧
    (∀ way vs later,
      h.run (vs.map (.single way) ++ later) = h.run (.batch way vs :: later)) ∧
    (∀ way (vss : List (List Int)) later,
      h.run (vss.map (.batch way) ++ later) = h.run (.batch way vss.flatten :: later)) := by
  intro h
  have hf : h.Fifo capacity := (fifo_start capacity hc).run ops
  refine ⟨hf.admitted_eq, hf.residents_eq, hf.length_displaced, hf.parked_eq,
    h.window.toList_enqueue, ?_, ?_⟩
  · intro way vs later
    rw [run_append, run_singles]
    rfl
  · intro way vss later
    rw [run_append, run_batches]
    rfl

/-- All requests at once. The first batch displaces a member of its own, the second is refused and
    the third is not. -/
theorem fifo_law_of_mixed :
    ((start 2 Nat.two_pos).run [.enqueueAll [1, 2, 3], .offer 4, .tryAll [5, 6, 7] (fun _ => false),
      .tryAll [5] (· == [3]), .poll, .offerAll [6, 7, 8], .enqueue 9, .poll]).window.residents =
        [8, 9] ∧
    ((start 2 Nat.two_pos).run [.enqueueAll [1, 2, 3], .offer 4, .tryAll [5, 6, 7] (fun _ => false),
      .tryAll [5] (· == [3]), .poll, .offerAll [6, 7, 8], .enqueue 9, .poll]).displaced.length = 7 ∧
    ((start 2 Nat.two_pos).run [.enqueueAll [1, 2, 3], .offer 4, .tryAll [5, 6, 7] (fun _ => false),
      .tryAll [5] (· == [3]), .poll, .offerAll [6, 7, 8], .enqueue 9, .poll]).polled ++ [5, 6] =
        [2, 4, 5, 6] := by
  obtain ⟨-, hresidents, hlength, hparked, -⟩ := fifo_law Nat.two_pos [.enqueueAll [1, 2, 3], .offer 4,
    .tryAll [5, 6, 7] (fun _ => false), .tryAll [5] (· == [3]), .poll, .offerAll [6, 7, 8],
    .enqueue 9, .poll]
  exact ⟨hresidents.trans (by decide), hlength.trans (by decide), hparked.trans (by decide)⟩

end History

end WindowedMean.Window
