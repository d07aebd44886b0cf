import WindowedMean.Proofs.Conservation
import WindowedMean.Proofs.GroupStop

/-! Two ways to empty a queue.

    A worker that serves takes one event and then as many as the batch still has room for; one that
    drains fills a buffer, and hands it over when it is full or when nothing is left. With nobody
    submitting in between, both come to the same batches:

        serving     hand, hand, …, hand,  idle …  │ signal  close,  finish
        draining    signal  close,  hand, hand, …, hand,  finish

    All batches are full but for the last, which is not empty. Since a batch that the node refuses
    is dropped as a whole, this is what makes it certain that the same events survive. Only where a
    batch fits into no memory is a queue not cut at all, but lost; then it is lost both ways. -/

namespace WindowedMean.Ingestion

/-- The batch that an event handed over, and what the node made of it. -/
def Event.handover? : Event → Option Handover
  | .handed h => some h
  | _ => none

/-- All that was handed over in a run. -/
def handovers (es : List Event) : List Handover := es.filterMap Event.handover?

/-- The batches of a queue: full but for the last, and none of them empty. -/
structure Cut (size : Nat) (queue : List Int) (batches : List (List Int)) : Prop where
  flatten_eq : batches.flatten = queue
  full : ∀ b ∈ batches.dropLast, b.length = size
  bounds : ∀ b ∈ batches, b ≠ [] ∧ b.length ≤ size

theorem cut_nil (size : Nat) : Cut size [] [] where
  flatten_eq := rfl
  full := fun _ h => nomatch h
  bounds := fun _ h => nomatch h

/-- One batch off the front of a queue that is not empty. -/
theorem Cut.cons {size : Nat} {queue : List Int} {batches : List (List Int)} (hs : 0 < size)
    (hq : queue ≠ []) (h : Cut size (queue.drop size) batches) :
    Cut size queue (queue.take size :: batches) where
  flatten_eq := by rw [List.flatten_cons, h.flatten_eq, List.take_append_drop]
  full := by
    intro b hb
    cases batches with
    | nil => cases hb
    | cons b' later =>
      rw [List.dropLast_cons_cons] at hb
      rcases List.mem_cons.1 hb with rfl | hb
      · -- Something is left behind the batch, so the batch is full.
        have hlong : size < queue.length := by
          refine Nat.lt_of_not_le fun hshort => ?_
          have hnone := h.flatten_eq
          rw [List.drop_eq_nil_of_le hshort, List.flatten_cons] at hnone
          exact (h.bounds b' (List.mem_cons_self ..)).1 (List.append_eq_nil_iff.1 hnone).1
        rw [List.length_take, Nat.min_eq_left (Nat.le_of_lt hlong)]
      · exact h.full b hb
  bounds := by
    intro b hb
    rcases List.mem_cons.1 hb with rfl | hb
    · have hl := List.length_pos_iff.2 hq
      refine ⟨List.length_pos_iff.1 ?_, ?_⟩
      · rw [List.length_take]
        omega
      · rw [List.length_take]
        exact Nat.min_le_left ..
    · exact h.bounds b hb

variable {i j : Ingestion} {e : Event}

theorem Handing.handOver (hp : i.Handing) : i.handOver.Handing := by
  rw [Handing, phase_handOver, intake_handOver, signalled_handOver]
  exact hp

theorem length_queue_handOver_lt (hq : i.queue ≠ []) :
    i.handOver.queue.length < i.queue.length := by
  have hb := i.intake.batch_pos
  have hl := List.length_pos_iff.2 hq
  rw [queue_handOver, List.length_drop]
  omega

/-- All that is handed over if the worker goes on until the queue is empty, and what is left. -/
def handAll (i : Ingestion) : List Handover × Ingestion :=
  if i.queue = [] then ([], i)
  else
    let (hs, j) := i.handOver.handAll
    (⟨i.nextBatch, (i.node.process i.nextBatch).1⟩ :: hs, j)
  termination_by i.queue.length
  decreasing_by exact length_queue_handOver_lt ‹_›

theorem handAll_of_empty (hq : i.queue = []) : i.handAll = ([], i) := by
  rw [handAll, if_pos hq]

theorem handAll_of_ne (hq : i.queue ≠ []) :
    i.handAll = (⟨i.nextBatch, (i.node.process i.nextBatch).1⟩ :: i.handOver.handAll.1,
      i.handOver.handAll.2) := by
  rw [handAll, if_neg hq]

theorem length_handAll_le (i : Ingestion) : i.handAll.1.length ≤ i.queue.length := by
  fun_induction handAll i with
  | case1 i hq => exact Nat.zero_le _
  | case2 i hq hs j hj ih =>
    rw [hj] at ih
    exact Nat.lt_of_le_of_lt ih (length_queue_handOver_lt hq)

theorem cut_handAll (i : Ingestion) : Cut i.intake.batch i.queue (i.handAll.1.map (·.batch)) := by
  fun_induction handAll i with
  | case1 i hq =>
    rw [hq]
    exact cut_nil _
  | case2 i hq hs j hj ih =>
    rw [hj, intake_handOver, queue_handOver] at ih
    exact ih.cons i.intake.batch_pos hq

theorem apply_signal_close (i : Ingestion) (b : List Int) :
    (i.signal.close.apply b).2 = (i.apply b).2.signal.close := by
  have hn : i.signal.close.node = i.node := rfl
  rw [apply, apply, hn]
  rcases i.node.process b with ⟨_ | _, n⟩ <;> rfl

theorem abandoned_handOver (i : Ingestion) : i.handOver.abandoned = i.abandoned := by
  rw [Ingestion.handOver, apply]
  rcases i.cut.node.process i.nextBatch with ⟨_ | _, n⟩ <;> rfl

/-- The node does not know whether the queue in front of it is closed. -/
theorem handOver_signal_close (i : Ingestion) :
    i.signal.close.handOver = i.handOver.signal.close := i.cut.apply_signal_close i.nextBatch

theorem handAll_signal_close (i : Ingestion) :
    i.signal.close.handAll = (i.handAll.1, i.handAll.2.signal.close) := by
  fun_induction handAll i with
  | case1 i hq => exact handAll_of_empty (i := i.signal.close) hq
  | case2 i hq hs j hj ih =>
    rw [handAll_of_ne (i := i.signal.close) hq, handOver_signal_close, ih, hj]
    rfl

/-! ### Turns -/

/-- What is left of an ingestion when its worker has been stopped, if the queue is empty. -/
def halted (i : Ingestion) : Ingestion := { i with phase := .finished, signalled := true }

theorem halted_of_finished (hp : i.phase = .finished) (hs : i.signalled = true) : i.halted = i :=
  Ingestion.ext rfl rfl rfl rfl hp.symm hs.symm rfl rfl

/-- With nothing in the queue, turns are about the phase only. -/
theorem Move.rests (m : Move i .turn e j) (hq : i.queue = []) :
    e.handover? = none ∧ j.queue = [] ∧ j.halted = i.halted := by
  cases m using Move.turn_cases with
  | hand hp hne => exact absurd hq hne
  | fail hp he => exact ⟨rfl, rfl, Ingestion.ext rfl rfl hq.symm rfl rfl rfl rfl rfl⟩
  | close hp he hc => exact ⟨rfl, hq, rfl⟩
  | finish hp hq => exact ⟨rfl, hq, rfl⟩
  | idle h => exact ⟨rfl, hq, rfl⟩

theorem rests_turns (hq : i.queue = []) (n : Nat) :
    handovers (i.run (turns n)).1 = [] ∧ (i.run (turns n)).2.queue = [] ∧
      (i.run (turns n)).2.halted = i.halted := by
  induction n generalizing i with
  | zero => exact ⟨rfl, hq, rfl⟩
  | succ n ih =>
    obtain ⟨hnone, hq', hh⟩ := (step_move i .turn).rests hq
    obtain ⟨hnone', hq'', hh'⟩ := ih hq'
    rw [turns, List.replicate_succ, run_cons, handovers, List.filterMap_cons_none hnone]
    exact ⟨hnone', hq'', hh'.trans hh⟩

/-- A worker that hands over what it finds hands over everything, if it has the turns for it. -/
theorem handAll_turns (hp : i.Handing) {n : Nat} (hn : i.handAll.1.length ≤ n) :
    handovers (i.run (turns n)).1 = i.handAll.1 ∧ (i.run (turns n)).2.queue = [] ∧
      (i.run (turns n)).2.halted = i.handAll.2.halted := by
  induction n generalizing i with
  | zero =>
    by_cases hq : i.queue = []
    · rw [handAll_of_empty hq]
      exact ⟨rfl, hq, rfl⟩
    · rw [handAll_of_ne hq] at hn
      exact absurd hn (Nat.not_succ_le_zero _)
  | succ n ih =>
    by_cases hq : i.queue = []
    · rw [handAll_of_empty hq]
      exact rests_turns hq (n + 1)
    · rw [handAll_of_ne hq] at hn ⊢
      obtain ⟨hall, hempty, hh⟩ := ih hp.handOver (Nat.le_of_succ_le_succ hn)
      rw [turns, List.replicate_succ, run_cons, step, turn_of_handing hp hq]
      exact ⟨congrArg (List.cons _) hall, hempty, hh⟩

/-- Stopping with nothing in the queue. -/
theorem stop_of_empty (hq : i.queue = []) :
    handovers (i.run i.stopping).1 = [] ∧ i.stop = i.halted := by
  obtain ⟨hnone, -, hh⟩ := rests_turns (i := i.signal) hq i.enough
  have hs : i.stop.signalled = true := signalled_run_turns (i := i.signal) rfl _
  exact ⟨hnone, (halted_of_finished (phase_stop i) hs).symm.trans hh⟩

/-- The worker serves and goes on serving: its batches fit into memory, and nobody asks it to stop. -/
structure Healthy (i : Ingestion) : Prop where
  serving : i.phase = .serving
  fits : i.intake.excessive = false
  unsignalled : i.signalled = false
  wanted : i.abandoned = false

theorem Healthy.turn (hi : i.Healthy) : i.turn.2.Healthy := by
  obtain ⟨hp, he, hs, ha⟩ := hi
  by_cases hq : i.queue = []
  · have hwanted : ¬ (i.abandoned ∧ i.waiting = []) := fun h => Bool.false_ne_true (ha.symm.trans h.1)
    rw [turn_of_serving_empty hp he hs hq, if_neg hwanted]
    exact ⟨hp, he, hs, ha⟩
  · rw [turn_of_handing (Or.inl ⟨hp, he, hs⟩) hq]
    exact ⟨i.phase_handOver.trans hp, i.intake_handOver ▸ he, i.signalled_handOver.trans hs,
      i.abandoned_handOver.trans ha⟩

theorem Healthy.turns (hi : i.Healthy) (n : Nat) : (i.run (turns n)).2.Healthy := by
  induction n with
  | zero => exact hi
  | succ n ih =>
    rw [run_turns_succ]
    exact ih.turn

theorem serving_turns (hp : i.phase = .serving) (he : i.intake.excessive = false)
    (hs : i.signalled = false) (ha : i.abandoned = false) (n : Nat) :
    (i.run (turns n)).2.phase = .serving :=
  (Healthy.turns ⟨hp, he, hs, ha⟩ n).serving

/-! ### Both ways -/

/-- The main loop empties the queue, and then the worker is stopped. -/
theorem settle_then_stop (hp : i.phase = .serving) (he : i.intake.excessive = false)
    (hs : i.signalled = false) :
    handovers (i.run (turns i.enough)).1 = i.handAll.1 ∧ i.settle.queue = [] ∧
      i.settle.stop = i.handAll.2.halted := by
  have hn : i.handAll.1.length ≤ i.enough := Nat.le_trans i.length_handAll_le (Nat.le_add_right ..)
  obtain ⟨hall, hempty, hh⟩ := handAll_turns (Or.inl ⟨hp, he, hs⟩) hn
  exact ⟨hall, hempty, (stop_of_empty (i := i.settle) hempty).2.trans hh⟩

/-- The worker is asked to stop before its next turn, and drains the queue. -/
theorem stop_at_once (hp : i.phase = .serving) (he : i.intake.excessive = false) :
    handovers (i.run i.stopping).1 = i.handAll.1 ∧ i.stop = i.handAll.2.halted := by
  have hturn : i.signal.step .turn = (.nothing, i.signal.close) := by
    rw [step, turn_of_signalled (i := i.signal) hp he rfl]
  have hrun : i.run i.stopping = (.nothing :: .nothing ::
      (i.signal.close.run (turns (i.queue.length + 1))).1,
        (i.signal.close.run (turns (i.queue.length + 1))).2) := by
    have hsignal : i.step .signal = (.nothing, i.signal) := rfl
    rw [stopping, enough, turns, List.replicate_succ, run_cons, hsignal, run_cons, hturn]
    rfl
  have hn : i.signal.close.handAll.1.length ≤ i.queue.length + 1 := by
    rw [handAll_signal_close]
    exact Nat.le_succ_of_le i.length_handAll_le
  obtain ⟨hall, -, hh⟩ := handAll_turns (i := i.signal.close) (Or.inr rfl) hn
  rw [handAll_signal_close] at hall hh
  have hstopped : i.stop.signalled = true := signalled_run_turns (i := i.signal) rfl _
  refine ⟨?_, ?_⟩
  · rw [hrun]
    exact hall
  · rw [← halted_of_finished (phase_stop i) hstopped, stop_eq_run, hrun]
    exact hh

/-- A worker whose batches fit into no memory hands nothing over, and loses the queue. -/
theorem fail_turns (hp : i.phase = .serving) (he : i.intake.excessive = true) (n : Nat) :
    handovers (i.run (turns (n + 1))).1 = [] ∧ (i.run (turns (n + 1))).2.queue = [] ∧
      (i.run (turns (n + 1))).2.halted = i.fail.halted := by
  rw [turns, List.replicate_succ, run_cons, step, turn_of_excessive hp he]
  exact rests_turns (i := i.fail) rfl n

/-- Let a worker serve that was not asked to stop, whatever its node holds. To let it empty its
    queue and then stop it, or to stop it at once, comes to the same batches with the same results,
    and in the end to the same node and the same counters: in the one way all is handed over before
    the signal, in the other the queue is closed first. What is handed over is the queue, in batches
    that are full but for the last and none of them empty, exactly if a batch fits into memory or
    there is nothing to hand over. -/
theorem serving_cuts_as_draining (i : Ingestion) (hp : i.phase = .serving)
    (hs : i.signalled = false) :
    (handovers (i.run (turns i.enough)).1 = handovers (i.run i.stopping).1 ∧
      i.settle.queue = [] ∧ handovers (i.settle.run i.settle.stopping).1 = [] ∧
      (i.intake.excessive = false → i.abandoned = false → i.settle.phase = .serving)) ∧
    ((i.signal.step .turn).1.handover? = none ∧ (i.signal.step .turn).2.phase ≠ .serving) ∧
    i.settle.stop = i.stop ∧
    (Cut i.intake.batch i.queue ((handovers (i.run i.stopping).1).map (·.batch)) ↔
      i.intake.excessive = false ∨ i.queue = []) := by
  cases he : i.intake.excessive with
  | false =>
    obtain ⟨hserved, hempty, hend⟩ := settle_then_stop hp he hs
    obtain ⟨hdrained, hend'⟩ := stop_at_once hp he
    rw [hserved, hdrained, hend, hend', step, turn_of_signalled (i := i.signal) hp he rfl]
    refine ⟨⟨rfl, hempty, (stop_of_empty hempty).1, fun _ ha => serving_turns hp he hs ha _⟩,
      ⟨rfl, Phase.noConfusion⟩, rfl, ?_⟩
    exact ⟨fun _ => Or.inl rfl, fun _ => i.cut_handAll⟩
  | true =>
    obtain ⟨hserved, hempty, hh⟩ := fail_turns hp he (i.queue.length + 1)
    obtain ⟨hdrained, -, hh'⟩ := fail_turns (i := i.signal) hp he (i.queue.length + 1)
    obtain ⟨hnone, hstop⟩ := stop_of_empty (i := i.settle) hempty
    have hstopped : i.stop.signalled = true := signalled_run_turns (i := i.signal) rfl _
    have hlost : handovers (i.run i.stopping).1 = [] := hdrained
    rw [hlost, step, turn_of_excessive (i := i.signal) hp he]
    refine ⟨⟨hserved, hempty, hnone, fun h => Bool.noConfusion h⟩, ⟨rfl, Phase.noConfusion⟩, ?_, ?_⟩
    · rw [hstop, ← halted_of_finished (phase_stop i) hstopped]
      exact hh.trans hh'.symm
    · constructor
      · intro hcut
        exact Or.inr hcut.flatten_eq.symm
      · rintro (h | hq)
        · cases h
        · rw [hq]
          exact cut_nil _

/-- Batches of two. The first is refused and dropped as a whole, the last is not full. -/
theorem serving_cuts_as_draining_of_refusal :
    let i := ((start (Node.ofWindow 0 (.empty 2 Nat.two_pos)) ⟨8, 2⟩).run
      [.submit greatest, .submit 1, .submit 5, .submit (-7), .submit 3]).2
    i.settle.stop = i.stop ∧
    Cut 2 [greatest, 1, 5, -7, 3] ((handovers (i.run i.stopping).1).map (·.batch)) ∧
    (handovers (i.run (turns i.enough)).1).map (·.batch) = [[greatest, 1], [5, -7], [3]] ∧
    i.stop.node.window.residents = [-7, 3] ∧ i.stop.counters.failures.count = 1 := by
  intro i
  obtain ⟨-, -, hend, hcut⟩ :=
    serving_cuts_as_draining i (by decide +kernel) (by decide +kernel)
  exact ⟨hend, hcut.2 (Or.inl (by decide +kernel)), by decide +kernel⟩

end WindowedMean.Ingestion
