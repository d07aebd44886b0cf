import WindowedMean.Producer
import WindowedMean.Proofs.Stopping

/-! All that a producer does to the ingestion behind it.

    A producer waits for room, submits and lets the worker go on, again and again. So whatever it
    does is a row of steps of the ingestion:

        turns, attempt v, turns, retry, turns,  turns, attempt v', turns,  …

    and all the values that it offers are drawn below its bound. -/

namespace WindowedMean

namespace Ingestion

/-- The event that a step offers to the queue, if any. Who stands in the line has offered its event
    before. -/
def Step.offered : Step → List Int
  | .submit v => [v]
  | .attempt v => [v]
  | _ => []

/-- The events that a row of steps offers to the queue. -/
def offered (steps : List Step) : List Int := steps.flatMap Step.offered

@[simp] theorem offered_append (steps steps' : List Step) :
    offered (steps ++ steps') = offered steps ++ offered steps' :=
  List.flatMap_append

@[simp] theorem offered_turns (n : Nat) : offered (turns n) = [] := by
  induction n with
  | zero => rfl
  | succ n ih => exact ih

/-- A caller who waits offers its own event only. -/
theorem Waits.offered {i : Ingestion} {v : Int} {r : Except IngestError Unit} {steps : List Step}
    {last : Step} (h : i.Waits v r steps last) : ∀ w ∈ offered (steps ++ [last]), w = v := by
  intro w hw
  obtain ⟨s, hs, hw⟩ := List.mem_flatMap.1 hw
  rcases h.steps_eq s hs with rfl | rfl | rfl
  · cases hw
  · exact List.mem_singleton.1 hw
  · cases hw

theorem settle_eq_run (i : Ingestion) : i.settle = (i.run (turns i.enough)).2 := rfl

theorem run_run (i : Ingestion) (steps later : List Step) :
    ((i.run steps).2.run later).2 = (i.run (steps ++ later)).2 := by
  rw [run_append]

end Ingestion

namespace Producer
open Ingestion (offered turns)

/-- The value may come from the producer. -/
def Draws (p : Producer) (v : Int) : Prop := 0 ≤ v ∧ v < p.span

theorem draws_value (p : Producer) : p.Draws p.value := ⟨p.value_nonneg, p.value_lt⟩

theorem draws_congr {p p' : Producer} (h : p'.settings = p.settings) : p'.Draws = p.Draws := by
  funext v
  rw [Draws, Draws, span, span, h]

/-- `(p', i')` is what becomes of a producer and its ingestion when it does nothing but submit values
    of its own, and the worker has turns in between. -/
structure Feeds (p : Producer) (i : Ingestion) (p' : Producer) (i' : Ingestion) : Prop where
  settings_eq : p'.settings = p.settings
  run : ∃ steps, i' = (i.run steps).2 ∧ ∀ v ∈ offered steps, p.Draws v

variable {p p' p'' : Producer} {i i' i'' : Ingestion}

theorem feeds_turns (p : Producer) (i : Ingestion) (n : Nat) : p.Feeds i p (i.run (turns n)).2 := by
  refine ⟨rfl, turns n, rfl, fun v hv => ?_⟩
  rw [Ingestion.offered_turns] at hv
  cases hv

theorem Feeds.trans (h : p.Feeds i p' i') (h' : p'.Feeds i' p'' i'') : p.Feeds i p'' i'' := by
  obtain ⟨hsettings, steps, rfl, hdraws⟩ := h
  obtain ⟨hsettings', later, rfl, hdraws'⟩ := h'
  refine ⟨hsettings'.trans hsettings, steps ++ later, Ingestion.run_run .., fun v hv => ?_⟩
  rw [Ingestion.offered_append] at hv
  rcases List.mem_append.1 hv with hv | hv
  · exact hdraws v hv
  · exact draws_congr hsettings ▸ hdraws' v hv

theorem feeds_submitWaiting (p : Producer) (i : Ingestion) (left : Nat)
    (hs : p'.settings = p.settings) : p.Feeds i p' (i.submitWaiting left p.value).2.2.settle := by
  obtain ⟨r, steps, last, hwaits, -, hend⟩ := Ingestion.submitWaiting_eq_run i left p.value
  rw [hend, Ingestion.settle_eq_run, Ingestion.run_run]
  refine ⟨hs, _, rfl, fun v hv => ?_⟩
  rw [Ingestion.offered_append, Ingestion.offered_turns, List.append_nil] at hv
  rw [hwaits.offered v hv]
  exact p.draws_value

theorem feeds_feed (p : Producer) (i : Ingestion) : p.Feeds i (p.feed i).1 (p.feed i).2 := by
  by_cases hf : p.finished
  · rw [feed, if_pos hf]
    exact p.feeds_turns i 0
  · have hwaited : ∀ p' : Producer, p'.settings = p.settings → p.Feeds i p' _ :=
      fun _ => feeds_submitWaiting p i Ingestion.shift
    rw [feed, if_neg hf]
    generalize i.submitWaiting Ingestion.shift p.value = answer at hwaited ⊢
    obtain ⟨_ | _, left, j⟩ := answer
    · exact hwaited { p with position := p.draw.2, finished := true } rfl
    · exact hwaited { p with position := p.draw.2, due := p.due + p.settings.pause } rfl

theorem feeds_feedMany (n : Nat) (p : Producer) (i : Ingestion) :
    p.Feeds i (feedMany n p i).1 (feedMany n p i).2 := by
  induction n generalizing p i with
  | zero => exact p.feeds_turns i 0
  | succ n ih => exact (p.feeds_feed i).trans (ih _ _)

/-- Whatever becomes due, it is submitted and is a value of the producer. -/
theorem feeds_advance (p : Producer) (time : Nat) (i : Ingestion) :
    p.Feeds i (p.advance time i).1 (p.advance time i).2 :=
  (p.feeds_turns i i.enough).trans (feeds_feedMany (p.dueBy time) p i.settle)

end Producer

end WindowedMean
