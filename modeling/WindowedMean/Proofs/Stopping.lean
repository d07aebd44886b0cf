import WindowedMean.Proofs.Conservation

/-! Turns of the worker with nothing in between: stopping, and waiting for a place.

    A worker that was asked to stop has a number of turns ahead of it that sinks with each turn and
    is zero only at the end:

        serving   queue + 2        draining   queue + 1        finished   0

    `enough` is never less than that, so `stop` ends with a finished worker. After every turn there
    is room in the queue, or it is closed, so the first in the line is answered when it looks again.
    Each answer brings the others forward, and a caller who waits is answered after all who stood in
    front, and never told that the queue is full. -/

namespace WindowedMean.Ingestion

/-- Nothing but turns. -/
def turns (n : Nat) : List Step := List.replicate n .turn

/-- How many turns at most are ahead of a worker that was asked to stop. -/
def ahead (i : Ingestion) : Nat :=
  match i.phase with
  | .serving => i.queue.length + 2
  | .draining => i.queue.length + 1
  | .finished => 0

theorem ahead_serving {i : Ingestion} (hp : i.phase = .serving) : i.ahead = i.queue.length + 2 := by
  rw [ahead, hp]

theorem ahead_draining {i : Ingestion} (hp : i.phase = .draining) :
    i.ahead = i.queue.length + 1 := by
  rw [ahead, hp]

theorem ahead_finished {i : Ingestion} (hp : i.phase = .finished) : i.ahead = 0 := by
  rw [ahead, hp]

theorem ahead_le_of_finished {i : Ingestion} (hp : i.phase = .finished) (n : Nat) : i.ahead ≤ n :=
  Nat.le_trans (Nat.le_of_eq (ahead_finished hp)) (Nat.zero_le n)

theorem finished_of_ahead {i : Ingestion} (h : i.ahead = 0) : i.phase = .finished := by
  cases hp : i.phase with
  | serving =>
    rw [ahead_serving hp] at h
    cases h
  | draining =>
    rw [ahead_draining hp] at h
    cases h
  | finished => rfl

theorem ahead_le_enough (i : Ingestion) : i.ahead ≤ i.enough := by
  cases hp : i.phase with
  | serving => exact Nat.le_of_eq (ahead_serving hp)
  | draining =>
    rw [ahead_draining hp]
    exact Nat.le_succ _
  | finished => exact ahead_le_of_finished hp _

variable {i j : Ingestion} {s : Step} {e : Event}

/-! ### What turns leave alone -/

theorem Move.waiting_of_turn (m : Move i .turn e j) : j.waiting = i.waiting := by
  cases m using Move.turn_cases with
  | hand hp hq => exact i.waiting_handOver
  | _ => rfl

theorem Move.answer_of_turn (m : Move i .turn e j) : e.answer? = none := by
  cases m using Move.turn_cases with
  | _ => rfl

/-- Turns change nothing in the line, and nobody is answered. -/
theorem waiting_turns (i : Ingestion) (n : Nat) : (i.run (turns n)).2.waiting = i.waiting := by
  induction n generalizing i with
  | zero => rfl
  | succ n ih => exact (ih (i.step .turn).2).trans (step_move i .turn).waiting_of_turn

theorem answers_turns (i : Ingestion) (n : Nat) : answers (i.run (turns n)).1 = [] := by
  induction n generalizing i with
  | zero => rfl
  | succ n ih =>
    have hnow := (step_move i .turn).answer_of_turn
    have hlater := ih (i.step .turn).2
    rw [answers] at hlater
    rw [turns, List.replicate_succ, run_cons, answers, List.filterMap_cons_none hnow]
    exact hlater

theorem accepted_turns (i : Ingestion) (n : Nat) : accepted (i.run (turns n)).1 = [] := by
  refine List.eq_nil_of_length_eq_zero ?_
  rw [← countP_answers, answers_turns, List.countP_nil]

/-! ### Stopping -/

/-- A turn of a worker that was asked to stop is one turn fewer ahead. -/
theorem Move.ahead_le (m : Move i .turn e j) (hs : i.signalled = true) :
    j.signalled = true ∧ j.ahead ≤ i.ahead - 1 := by
  cases m using Move.turn_cases with
  | hand hh hq =>
    refine ⟨i.signalled_handOver ▸ hs, ?_⟩
    rcases hh with ⟨-, -, hn⟩ | hd
    · rw [hs] at hn
      cases hn
    · have hb := i.intake.batch_pos
      have hl := List.length_pos_iff.2 hq
      rw [ahead_draining hd, ahead_draining (i.phase_handOver.trans hd), queue_handOver,
        List.length_drop]
      omega
  | fail hp he => exact ⟨hs, ahead_le_of_finished rfl _⟩
  | close hp he hc =>
    refine ⟨hs, ?_⟩
    rw [ahead_serving hp, ahead_draining rfl]
    exact Nat.le_refl _
  | finish hp hq => exact ⟨hs, ahead_le_of_finished rfl _⟩
  | idle h =>
    rcases h with hf | ⟨-, -, hn, -⟩
    · exact ⟨hs, ahead_le_of_finished hf _⟩
    · rw [hs] at hn
      cases hn

theorem ahead_turns (i : Ingestion) (hs : i.signalled = true) (n : Nat) :
    (i.run (turns n)).2.ahead ≤ i.ahead - n := by
  induction n generalizing i with
  | zero => exact Nat.le_refl _
  | succ n ih =>
    obtain ⟨hs', hle⟩ := (step_move i .turn).ahead_le hs
    have hlater := ih (i.step .turn).2 hs'
    change ((i.step .turn).2.run (turns n)).2.ahead ≤ i.ahead - (n + 1)
    omega

/-- The steps that stop an ingestion. -/
def stopping (i : Ingestion) : List Step := .signal :: turns i.enough

theorem stop_eq_run (i : Ingestion) : i.stop = (i.run i.stopping).2 := rfl

/-- Stopping lets nothing in. -/
theorem accepted_stopping (i : Ingestion) : accepted (i.run i.stopping).1 = [] :=
  accepted_turns i.signal i.enough

theorem phase_stop (i : Ingestion) : i.stop.phase = .finished := by
  have hle := ahead_turns i.signal rfl i.signal.enough
  rw [Nat.sub_eq_zero_of_le i.signal.ahead_le_enough] at hle
  exact finished_of_ahead (Nat.le_zero.1 hle)

/-! ### Waiting for a place -/

/-- The first in the line is answered when it looks: there is room in the queue, or it is closed. -/
def Answers (i : Ingestion) : Prop := i.phase ≠ .serving ∨ i.queue.length < i.intake.places

theorem Move.answers (m : Move i .turn e j) : j.Answers := by
  cases m using Move.turn_cases with
  | hand hh hq =>
    have hb := i.intake.batch_pos
    have hl := List.length_pos_iff.2 hq
    have hle := i.length_le
    refine Or.inr ?_
    rw [queue_handOver, intake_handOver, List.length_drop]
    omega
  | idle h =>
    rcases h with hf | ⟨-, -, -, hq⟩
    · refine Or.inl ?_
      rw [hf]
      exact Phase.noConfusion
    · refine Or.inr ?_
      rw [hq]
      exact i.intake.places_pos
  | _ => exact Or.inl Phase.noConfusion

/-- What a worker does in a shift is a number of turns, and after it the first in the line is
    answered. -/
theorem work_eq_run (left : Nat) (i : Ingestion) :
    (∃ n, i.work left = (i.run (turns n)).2) ∧
      (i.turnCost ≤ left ∨ i.Answers → (i.work left).Answers) := by
  fun_induction work left i with
  | case1 left i hle ih =>
    obtain ⟨⟨n, hn⟩, hanswers⟩ := ih
    have hturn : i.turn.2 = (i.step .turn).2 := by
      rw [step]
      rcases i.turn with ⟨_ | h, j⟩ <;> rfl
    refine ⟨⟨n + 1, ?_⟩, fun _ => hanswers (Or.inr ?_)⟩
    · rw [hn, hturn]
      rfl
    · rw [hturn]
      exact (step_move i .turn).answers
  | case2 left i hlt =>
    refine ⟨⟨0, rfl⟩, ?_⟩
    rintro (hle | ha)
    · exact absurd hle hlt
    · exact ha

/-- A shift is long enough for the first in the line. -/
theorem answers_work_shift (i : Ingestion) : (i.work shift).Answers := by
  refine (work_eq_run shift i).2 ?_
  cases hp : i.phase with
  | draining => exact Or.inr (Or.inl (hp ▸ Phase.noConfusion))
  | finished => exact Or.inr (Or.inl (hp ▸ Phase.noConfusion))
  | serving =>
    refine Or.inl ?_
    rw [turnCost, hp]
    exact Nat.le_of_ble_eq_true rfl

/-- The answer that a caller who waits gets in the end, as an event. -/
def settled (v : Int) : Except IngestError Unit → Event
  | .ok () => .accepted v
  | .error e => .refused e

/-- The first in the line is answered, and leaves the line. -/
theorem retry_of_answers {v : Int} {later : List Int} (ha : i.Answers)
    (hw : i.waiting = v :: later) :
    ∃ r, (r = .ok () ∨ r = .error (.closed v)) ∧ i.retry 0 = (some r, (i.step (.retry 0)).2) ∧
      (i.step (.retry 0)).1 = settled v r ∧ (i.step (.retry 0)).2.waiting = later := by
  have hfirst : i.waiting[0]? = some v := by rw [hw, List.getElem?_cons_zero]
  have hleave : (i.leave 0).waiting = later := by rw [leave, hw, List.eraseIdx_cons_zero]
  by_cases hp : i.phase = .serving
  · have hk : 0 < i.granted := by
      have hroom := ha.resolve_left (not_not_intro hp)
      rw [granted, hw, List.length_cons]
      omega
    refine ⟨.ok (), Or.inl rfl, ?_⟩
    simp only [step, hfirst, retry_of_granted hfirst hp hk]
    exact ⟨trivial, rfl, hleave⟩
  · refine ⟨.error (.closed v), Or.inr rfl, ?_⟩
    simp only [step, hfirst, retry_of_closed hfirst hp]
    exact ⟨trivial, rfl, hleave⟩

/-- A newcomer is answered at once, or stands at the end of the line. -/
theorem attempt_cases (i : Ingestion) (v : Int) :
    (∃ r, (r = .ok () ∨ r = .error (.closed v)) ∧
      i.attempt v = (some r, (i.step (.attempt v)).2) ∧
      (i.step (.attempt v)).1 = settled v r ∧ (i.step (.attempt v)).2.waiting = i.waiting) ∨
    (i.attempt v = (none, i.join v) ∧ i.step (.attempt v) = (.waiting v, i.join v)) := by
  by_cases hp : i.phase = .serving
  · by_cases h : i.occupied < i.intake.places
    · refine Or.inl ⟨.ok (), Or.inl rfl, ?_⟩
      rw [step, attempt_of_place hp h]
      exact ⟨rfl, rfl, rfl⟩
    · refine Or.inr ?_
      rw [step, attempt_of_occupied hp h]
      exact ⟨rfl, rfl⟩
  · refine Or.inl ⟨.error (.closed v), Or.inr rfl, ?_⟩
    rw [step, attempt_of_closed hp]
    exact ⟨rfl, rfl, rfl⟩

theorem run_concat (i : Ingestion) (steps : List Step) (s : Step) :
    i.run (steps ++ [s]) =
      ((i.run steps).1 ++ [((i.run steps).2.step s).1], ((i.run steps).2.step s).2) :=
  i.run_append steps [s]

/-- The worker works a shift, and the first in the line is answered. -/
theorem shift_then_retry {v : Int} {later : List Int} (hw : i.waiting = v :: later) :
    ∃ n r, (r = .ok () ∨ r = .error (.closed v)) ∧
      (i.work shift).retry 0 = (some r, (i.run (turns n ++ [.retry 0])).2) ∧
      ((i.run (turns n)).2.step (.retry 0)).1 = settled v r ∧
      (i.run (turns n ++ [.retry 0])).2.waiting = later ∧
      (answers (i.run (turns n ++ [.retry 0])).1).length = 1 := by
  obtain ⟨n, hn⟩ := (work_eq_run shift i).1
  have hline : (i.work shift).waiting = v :: later := by rw [hn, waiting_turns, hw]
  obtain ⟨r, hr, hretry, htold, hleft⟩ := retry_of_answers (answers_work_shift i) hline
  rw [hn] at hretry htold hleft
  refine ⟨n, r, hr, ?_, htold, ?_, ?_⟩
  · rw [run_concat, hn, hretry]
  · rw [run_concat]
    exact hleft
  · rw [run_concat, answers_append, answers_turns, htold]
    cases r <;> rfl

/-- Whoever stands at the end of the line is answered after all who stand in front. -/
theorem await_eq_run {ahead : List Int} {v : Int} (hw : i.waiting = ahead ++ [v]) :
    ∃ steps r, (r = .ok () ∨ r = .error (.closed v)) ∧
      i.await v ahead.length = (r, (i.run (steps ++ [.retry 0])).2) ∧
      ((i.run steps).2.step (.retry 0)).1 = settled v r ∧
      (∀ s ∈ steps, s = .turn ∨ s = .retry 0) ∧
      (answers (i.run steps).1).length = ahead.length ∧
      (i.run (steps ++ [.retry 0])).2.waiting = [] := by
  induction ahead generalizing i with
  | nil =>
    obtain ⟨n, r, hr, hretry, htold, hline, -⟩ := shift_then_retry hw
    refine ⟨turns n, r, hr, ?_, htold, ?_, ?_, hline⟩
    · rw [List.length_nil, await, hretry]
    · exact fun s hs => Or.inl (List.eq_of_mem_replicate hs)
    · rw [answers_turns, List.length_nil, List.length_nil]
  | cons u ahead ih =>
    obtain ⟨n, first, -, hretry, -, hline, hone⟩ := shift_then_retry hw
    have hround : ∀ s ∈ turns n ++ [.retry 0], s = .turn ∨ s = .retry 0 := fun s hs =>
      (List.mem_append.1 hs).imp List.eq_of_mem_replicate List.mem_singleton.1
    generalize turns n ++ [.retry 0] = round at hretry hline hone hround
    obtain ⟨steps, r, hr, hawait, htold, hsteps, hothers, hend⟩ := ih hline
    refine ⟨round ++ steps, r, hr, ?_, ?_, ?_, ?_, ?_⟩
    · rw [List.length_cons, await, hretry, hawait, List.append_assoc, i.run_append round]
    · rw [run_append]
      exact htold
    · exact fun s hs => (List.mem_append.1 hs).elim (hround s) (hsteps s)
    · rw [run_append, answers_append, List.length_append, hone, hothers, List.length_cons,
        Nat.add_comm]
    · rw [List.append_assoc, run_append]
      exact hend

/-- A caller submits `v` and is answered `r` in the `last` of some steps: the event is in, or the
    queue is closed. The steps before are turns of the worker, the first try, and looks of those who
    stood in front; nobody else is answered. -/
structure Waits (i : Ingestion) (v : Int) (r : Except IngestError Unit) (steps : List Step)
    (last : Step) : Prop where
  answer : r = .ok () ∨ r = .error (.closed v)
  told : ((i.run steps).2.step last).1 = settled v r
  steps_eq : ∀ s ∈ steps ++ [last], s = .turn ∨ s = .attempt v ∨ s = .retry 0
  others : (answers (i.run steps).1).length ≤ i.waiting.length
  line : (i.run (steps ++ [last])).2.waiting = i.waiting ∨
    (i.run (steps ++ [last])).2.waiting = []

theorem attemptOrAwait_eq_run (i : Ingestion) (left : Nat) (v : Int) :
    ∃ r steps last, i.Waits v r steps last ∧ (i.attemptOrAwait left v).1 = r ∧
      (i.attemptOrAwait left v).2.2 = (i.run (steps ++ [last])).2 := by
  rcases attempt_cases i v with ⟨r, hr, hnow, htold, hline⟩ | ⟨hlater, hstep⟩
  · refine ⟨r, [], .attempt v, ⟨hr, htold, ?_, Nat.zero_le _, Or.inl hline⟩, ?_, ?_⟩
    · exact fun s hs => Or.inr (Or.inl (List.mem_singleton.1 hs))
    · rw [attemptOrAwait, hnow]
    · rw [attemptOrAwait, hnow]
      rfl
  · have hline : (i.join v).waiting = i.waiting ++ [v] := rfl
    obtain ⟨steps, r, hr, hawait, htold, hsteps, hothers, hend⟩ := await_eq_run hline
    have hjoin (more : List Step) : i.run (.attempt v :: more) =
        (.waiting v :: ((i.join v).run more).1, ((i.join v).run more).2) := by
      rw [run_cons, hstep]
    refine ⟨r, .attempt v :: steps, .retry 0, ⟨hr, ?_, ?_, ?_, Or.inr ?_⟩, ?_, ?_⟩
    · rw [hjoin]
      exact htold
    · intro s hs
      rcases List.mem_cons.1 hs with rfl | hs
      · exact Or.inr (Or.inl rfl)
      · rcases List.mem_append.1 hs with hs | hs
        · exact (hsteps s hs).imp_right Or.inr
        · exact Or.inr (Or.inr (List.mem_singleton.1 hs))
    · rw [hjoin]
      exact Nat.le_of_eq hothers
    · rw [List.cons_append, hjoin]
      exact hend
    · rw [attemptOrAwait, hlater]
      simp only [hawait]
    · rw [attemptOrAwait, hlater, List.cons_append, hjoin]
      simp only [hawait]

/-- A caller who waits is answered in the end, and the answer is never that the queue is full. -/
theorem submitWaiting_eq_run (i : Ingestion) (left : Nat) (v : Int) :
    ∃ r steps last, i.Waits v r steps last ∧ (i.submitWaiting left v).1 = r ∧
      (i.submitWaiting left v).2.2 = (i.run (steps ++ [last])).2 := by
  rw [submitWaiting]
  split
  · -- The worker works a shift first, and the line is the same afterwards.
    obtain ⟨n, hn⟩ := (work_eq_run shift i).1
    obtain ⟨r, steps, last, hwaits, hanswer, hend⟩ := attemptOrAwait_eq_run (i.work shift) shift v
    have hall (more : List Step) : i.run (turns n ++ more) =
        ((i.run (turns n)).1 ++ ((i.work shift).run more).1, ((i.work shift).run more).2) := by
      rw [run_append, hn]
    have hline : (i.work shift).waiting = i.waiting := by rw [hn, waiting_turns]
    refine ⟨r, turns n ++ steps, last, ⟨hwaits.answer, ?_, ?_, ?_, ?_⟩, hanswer, ?_⟩
    · rw [hall]
      exact hwaits.told
    · intro s hs
      rw [List.append_assoc] at hs
      rcases List.mem_append.1 hs with hs | hs
      · exact Or.inl (List.eq_of_mem_replicate hs)
      · exact hwaits.steps_eq s hs
    · rw [hall, answers_append, answers_turns, List.nil_append, ← hline]
      exact hwaits.others
    · rw [List.append_assoc, hall, ← hline]
      exact hwaits.line
    · rw [List.append_assoc, hall, hend]
  · exact attemptOrAwait_eq_run i left v

end WindowedMean.Ingestion
