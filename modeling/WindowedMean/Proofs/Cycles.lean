import WindowedMean.Proofs.Merging
import WindowedMean.Proofs.Routing

/-! What a reduce loop publishes, and what it says about it.

    Cycle by cycle a row of replies is folded from nothing, and the readout takes the place of the one
    before it. Of all that was published only sums stay behind:

        rows       r₁   r₂   r₃   …              each on its own
        published  ok   —    ok   …
        told       the number of readouts, of those without data, of those who did not answer,
                   and the last average

    So a readout depends on its own row and on nothing else, and what is told depends on nothing but
    the readouts, in whatever order those with data and those without it come. Whoever asks for the
    average gets the readout that was published last. -/

namespace WindowedMean

namespace Readout

/-- The readout says that there was no data. -/
def isNoData : Readout → Bool
  | .ok .. => false
  | .noData .. => true

theorem unreachable_ofResult (r : Reduction) (ideal : Float) (time : Instant) :
    (ofResult r.result ideal time).unreachable = r.unreachable := by
  rw [Reduction.result_eq]
  split <;> rfl

end Readout

namespace ReduceLoop
variable {l : ReduceLoop} {published : List Readout}

/-- The loop says of what it has published what there is to say: how much of it there was, what came
    last, and its sums. -/
structure Tells (l : ReduceLoop) (published : List Readout) : Prop where
  cycles_eq : l.cycles = published.length
  latest_eq : l.latest = published.getLast?
  runs_eq : l.counters.runs.count = published.length
  fanOuts_eq : l.counters.fanOuts.count = published.length
  noData_eq : l.counters.noData.count = published.countP Readout.isNoData
  unreachable_eq : l.counters.unreachable.count = (published.map Readout.unreachable).sum
  average_eq : l.counters.average = (published.filterMap Readout.average).getLast?

/-- What a cycle counts can be read off its readout. The average is overwritten only where there is a
    new one. -/
theorem counters_cycle (l : ReduceLoop) (replies : List Reply) (time : Instant) :
    (l.cycle replies time).2.counters =
      { runs := l.counters.runs.bump 1
        noData := if (l.cycle replies time).1.isNoData then l.counters.noData.bump 1
          else l.counters.noData
        unreachable := l.counters.unreachable.bump (l.cycle replies time).1.unreachable
        fanOuts := l.counters.fanOuts.bump 1
        average := (l.cycle replies time).1.average.or l.counters.average } := by
  have hunreachable := Readout.unreachable_ofResult (Reduction.ofReplies replies) l.ideal time
  rw [cycle, ReduceCounters.reduce]
  simp only [hunreachable]
  cases (Reduction.ofReplies replies).result <;> rfl

/-- One more readout. -/
theorem Tells.cycle (h : l.Tells published) (replies : List Reply) (time : Instant) :
    (l.cycle replies time).2.Tells (published ++ [(l.cycle replies time).1]) := by
  have hlength : (published ++ [(l.cycle replies time).1]).length = published.length + 1 :=
    List.length_append
  refine ⟨?_, ?_, ?_, ?_, ?_, ?_, ?_⟩
  · rw [hlength, ← h.cycles_eq]
    rfl
  · rw [List.getLast?_concat]
    rfl
  · rw [counters_cycle, Tally.count_bump, h.runs_eq, hlength]
  · rw [counters_cycle, Tally.count_bump, h.fanOuts_eq, hlength]
  · rw [counters_cycle, List.countP_append, List.countP_singleton, ← h.noData_eq]
    split <;> rfl
  · rw [counters_cycle, Tally.count_bump, h.unreachable_eq, List.map_append, List.sum_append,
      List.map_singleton, List.sum_singleton]
  · rw [counters_cycle, h.average_eq, List.filterMap_append, List.getLast?_append]
    cases (l.cycle replies time).1 <;> rfl

theorem Tells.run {l : ReduceLoop} {published : List Readout} (h : l.Tells published) (clock : Clock)
    (rows : List (List Reply)) :
    (l.run clock rows).2.Tells (published ++ (l.run clock rows).1.map (·.2)) := by
  induction rows generalizing l published with
  | nil => rwa [ReduceLoop.run, List.map_nil, List.append_nil]
  | cons replies later ih =>
    rw [ReduceLoop.run]
    split
    · have hlater := ih (h.cycle replies (clock l.due))
      rwa [List.append_assoc] at hlater
    · rwa [List.map_nil, List.append_nil]

end ReduceLoop

/-! ### Programs -/

namespace Service
variable {r : Service}

/-- The readout that a step publishes, if it publishes one. -/
def publishes (r : Service) : Step → Option Readout
  | .reduce endings => some (r.loop.cycle (r.cluster.collect meanKey endings) (r.clock r.now)).1
  | .cycle => r.cycle.1.map (·.2)
  | _ => none

/-- All readouts that are published in a run, in their order. -/
def published (r : Service) : List Step → List Readout
  | [] => []
  | s :: later => (r.publishes s).toList ++ (r.step s).published later

theorem loop_onLane {α : Type} (r : Service) (id : Nat) (f : Lane → α × Lane) :
    (r.onLane id f).2.loop = r.loop := by
  rw [onLane]
  cases r.position? id with
  | none => rfl
  | some k => cases hk : r.lanes[k]? <;> simp only [hk]

/-- A step leaves the loop alone, or is a cycle of it. What reduces is the cluster as it is after the
    step. -/
theorem loop_step (r : Service) (s : Step) :
    (r.publishes s = none ∧ (r.step s).loop = r.loop) ∨ ∃ endings time,
      r.publishes s = some (r.loop.cycle ((r.step s).cluster.collect meanKey endings) time).1 ∧
      (r.step s).loop = (r.loop.cycle ((r.step s).cluster.collect meanKey endings) time).2 := by
  cases s with
  | request q =>
    rw [step, snd_respond]
    cases q.posted? with
    | none => exact Or.inl ⟨rfl, rfl⟩
    | some b => exact Or.inl ⟨rfl, r.loop_onLane b.node _⟩
  | submit id vs => exact Or.inl ⟨rfl, r.loop_onLane id _⟩
  | attempt id v => exact Or.inl ⟨rfl, r.loop_onLane id _⟩
  | retry id k => exact Or.inl ⟨rfl, r.loop_onLane id _⟩
  | leave id k => exact Or.inl ⟨rfl, r.loop_onLane id _⟩
  | turn id => exact Or.inl ⟨rfl, r.loop_onLane id _⟩
  | settle => exact Or.inl ⟨rfl, rfl⟩
  | switch id on =>
    rw [step, snd_setReachable]
    exact Or.inl ⟨rfl, r.loop_onLane id _⟩
  | reduce endings => exact Or.inr ⟨endings, r.clock r.now, rfl, rfl⟩
  | cycle =>
    rw [step, publishes, cycle]
    cases r.ended with
    | true => exact Or.inl ⟨rfl, rfl⟩
    | false =>
      cases r.loop.runs with
      | true => exact Or.inr ⟨_, _, rfl, rfl⟩
      | false =>
        cases r.started with
        | true => exact Or.inl ⟨rfl, rfl⟩
        | false => exact Or.inl ⟨rfl, rfl⟩

end Service

namespace ReduceLoop

end ReduceLoop

end WindowedMean
