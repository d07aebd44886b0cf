import WindowedMean.Proofs.Delivery
import WindowedMean.Proofs.Following

/-! What the node behind a queue holds.

    Whatever the worker hands over, the node takes or refuses as a whole:

        handed   =   taken, one after the other   and   dropped, without a trace

    So the window of the node is the end of all that was taken, whatever came between, and the
    accumulator follows it. A batch may be cut anywhere; only where it is refused does the cut
    matter. -/

namespace WindowedMean

@[simp] theorem Node.id_process (n : Node) (events : List Int) :
    (n.process events).2.id = n.id := rfl

namespace Ingestion

/-- The batch that the node took in an event, if any. -/
def Event.taken : Event → List (List Int)
  | .handed ⟨b, .ok _⟩ => [b]
  | _ => []

/-- The batch that the node refused in an event, if any. -/
def Event.dropped : Event → List (List Int)
  | .handed ⟨b, .error _⟩ => [b]
  | _ => []

/-- The batches that the node took in a run, in their order. -/
def taken (es : List Event) : List (List Int) := es.flatMap Event.taken

/-- The batches that the node refused in a run, in their order. -/
def dropped (es : List Event) : List (List Int) := es.flatMap Event.dropped

/-- The node's window holds the end of all that the node took, and its accumulator follows. -/
structure Filled (capacity : Nat) (es : List Event) (i : Ingestion) : Prop where
  follows : ∃ seen, i.node.Follows seen
  capacity_eq : i.node.window.capacity = capacity
  residents_eq : i.node.window.residents = (taken es).flatten.rtake capacity

variable {capacity : Nat} {es : List Event} {i j : Ingestion} {s : Step} {e : Event} {seen : Bool}

theorem length_flatten_batches (es : List Event) :
    (batches es).flatten.length = (taken es).flatten.length + (dropped es).flatten.length := by
  induction es with
  | nil => rfl
  | cons e es ih =>
    simp only [batches, taken, dropped, List.flatMap_cons, List.flatten_append,
      List.length_append] at ih ⊢
    rcases e with v | r | v | ⟨b, _ | o⟩ | _ <;>
      simp [Event.batches, Event.taken, Event.dropped, ih] <;> omega

/-- A batch is handed over and taken, or handed over and dropped. The worker counts which. -/
theorem handOver_cases (hn : i.node.Follows seen) :
    (∃ o, (i.node.process i.nextBatch).1 = .ok o ∧
      i.handOver.node.window = i.node.window.extend i.nextBatch ∧ i.handOver.node.Follows true ∧
      i.handOver.counters = { i.counters with
        processed := i.counters.processed.bump i.nextBatch.length
        evicted := i.counters.evicted.bump (i.node.window.displaced i.nextBatch).length }) ∨
    (∃ e, (i.node.process i.nextBatch).1 = .error e ∧ i.handOver.node.window = i.node.window ∧
      i.handOver.node.Follows true ∧
      i.handOver.counters = { i.counters with failures := i.counters.failures.bump 1 }) := by
  rw [node_handOver]
  rcases hn.process_cases i.nextBatch with ⟨-, hr, hw, hf⟩ | ⟨-, hr, hw, hf⟩
  · refine Or.inl ⟨_, hr, hw, hf, ?_⟩
    have hp : i.cut.node.process i.nextBatch = (.ok _, (i.node.process i.nextBatch).2) :=
      Prod.ext hr rfl
    rw [handOver, apply, hp]
    rfl
  · refine Or.inr ⟨_, hr, hw, hf, ?_⟩
    have hp : i.cut.node.process i.nextBatch = (.error _, (i.node.process i.nextBatch).2) :=
      Prod.ext hr rfl
    rw [handOver, apply, hp]
    rfl

theorem Move.id_eq (m : Move i s e j) : j.node.id = i.node.id := by
  cases m with
  | hand hp hq => rw [node_handOver, Node.id_process]
  | _ => rfl

/-- A step in which the node takes nothing leaves its window alone; a batch that it takes enters. -/
theorem Move.node_cases (m : Move i s e j) (hn : i.node.Follows seen) :
    (∃ seen', j.node.Follows seen') ∧
      ((e.taken = [] ∧ j.node.window = i.node.window) ∨
        ∃ b, e.taken = [b] ∧ j.node.window = i.node.window.extend b) := by
  cases m with
  | hand hp hq =>
    rcases handOver_cases hn with ⟨o, hr, hw, hf, -⟩ | ⟨o, hr, hw, hf, -⟩
    · exact ⟨⟨true, hf⟩, Or.inr ⟨i.nextBatch, by rw [hr]; rfl, hw⟩⟩
    · exact ⟨⟨true, hf⟩, Or.inl ⟨by rw [hr]; rfl, hw⟩⟩
  | _ => exact ⟨⟨seen, hn⟩, Or.inl ⟨rfl, rfl⟩⟩

theorem Filled.move (hi : Filled capacity es i) (m : Move i s e j) :
    Filled capacity (es ++ [e]) j := by
  obtain ⟨⟨seen, hn⟩, hcap, hres⟩ := hi
  obtain ⟨hfollows, hcases⟩ := m.node_cases hn
  have htaken : taken (es ++ [e]) = taken es ++ e.taken := by simp [taken]
  rcases hcases with ⟨hnone, hw⟩ | ⟨b, hone, hw⟩
  · refine ⟨hfollows, by rw [hw, hcap], ?_⟩
    rw [hw, htaken, hnone, List.append_nil, hres]
  · refine ⟨hfollows, by rw [hw, Window.capacity_extend, hcap], ?_⟩
    rw [hw, Window.residents_extend, htaken, hone, List.flatten_append, List.flatten_singleton, hcap,
      hres, rtake_rtake_append]

theorem Filled.run {es : List Event} {i : Ingestion} (hi : Filled capacity es i)
    (steps : List Step) : Filled capacity (es ++ (i.run steps).1) (i.run steps).2 := by
  induction steps generalizing es i with
  | nil =>
    rw [Ingestion.run, List.append_nil]
    exact hi
  | cons s steps ih =>
    rw [run_cons, List.append_cons]
    exact ih (hi.move (step_move i s))

theorem id_run (i : Ingestion) (steps : List Step) : (i.run steps).2.node.id = i.node.id := by
  induction steps generalizing i with
  | nil => rfl
  | cons s steps ih => rw [run_cons, ih, (step_move i s).id_eq]

/-- The node behind a queue that began with an empty window. -/
theorem filled_run (id : Nat) {capacity : Nat} (h : 0 < capacity) (c : Intake) (steps : List Step) :
    Filled capacity ((start (Node.ofWindow id (.empty capacity h)) c).run steps).1
      ((start (Node.ofWindow id (.empty capacity h)) c).run steps).2 := by
  have hstart : Filled capacity [] (start (Node.ofWindow id (.empty capacity h)) c) :=
    ⟨⟨false, Node.follows_ofWindow id h⟩, rfl, (rtake_of_length_le (Nat.zero_le _)).symm⟩
  exact hstart.run steps

end Ingestion

end WindowedMean
