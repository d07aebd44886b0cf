import WindowedMean.Proofs.Stopping

/-! What those who submit can rely on.

    `Account` is the whole of it, at the end of a run of steps: nothing that was accepted is lost,
    doubled or moved, the bounds on queue and batch hold, a refusal says what is the case and leaves
    no trace but its count, whoever waits is answered, and stopping hands over all that is left. It
    holds of every run if a batch fits into memory (`account_kept`).

    A refusal does not look at the queue alone. A place that has been given to somebody in the line is
    gone, so a newcomer may be told that the queue is full when there is room in it
    (`rejected_with_room`); where nobody waits, it is full. -/

namespace WindowedMean.Ingestion

/-- The refusals that a submission may meet, and what they leave behind: its own event comes back, as
    rejected where the queue is open and all places are taken or have been given away, as closed where
    the worker has closed it. -/
inductive Refusal (i : Ingestion) : Step → IngestError → Ingestion → Prop where
  | full (v : Int) (hp : i.phase = .serving) (hfull : i.occupied = i.intake.places) :
      Refusal i (.submit v) (.rejected v) i.countRefusal
  | closed {s : Step} (v : Int) (hs : s = .submit v ∨ s = .attempt v) (hp : i.phase ≠ .serving) :
      Refusal i s (.closed v) i.countRefusal
  | closedWaiting (k : Nat) (v : Int) (hw : i.waiting[k]? = some v) (hp : i.phase ≠ .serving) :
      Refusal i (.retry k) (.closed v) (i.leave k).countRefusal

/-- What holds at the end of a run of `steps`. -/
structure Account (i : Ingestion) (steps : List Step) : Prop where
  conserved : (batches (i.run steps).1).flatten ++ (i.run steps).2.queue = accepted (i.run steps).1
  batch_length : ∀ b ∈ batches (i.run steps).1, 1 ≤ b.length ∧ b.length ≤ max 1 i.intake.batchSize
  queue_length : (i.run steps).2.queue.length ≤ max 1 i.intake.queueCapacity
  refused : ∀ s e, ((i.run steps).2.step s).1 = .refused e →
    Refusal (i.run steps).2 s e ((i.run steps).2.step s).2
  rejected_alone : (i.run steps).2.waiting = [] → ∀ v,
    ((i.run steps).2.step (.submit v)).1 = .refused (.rejected v) →
    (i.run steps).2.queue.length = max 1 i.intake.queueCapacity
  /-- A newcomer gets in only when everybody in the line has been given a place. -/
  in_turn : ∀ s v, s = .submit v ∨ s = .attempt v → ((i.run steps).2.step s).1 = .accepted v →
    (i.run steps).2.granted = (i.run steps).2.waiting.length
  /-- A caller who waits is answered in the end: the event is in, or the queue is closed. -/
  waited : ∀ left v, ∃ r more last, Waits (i.run steps).2 v r more last ∧
    ((i.run steps).2.submitWaiting left v).1 = r ∧
    ((i.run steps).2.submitWaiting left v).2.2 = (i.run (steps ++ more ++ [last])).2
  settle_eq : (i.run steps).2.settle = (i.run (steps ++ turns (i.run steps).2.enough)).2
  stop_eq : (i.run steps).2.stop = (i.run (steps ++ (i.run steps).2.stopping)).2
  stop_finished : (i.run steps).2.stop.phase = .finished ∧ (i.run steps).2.stop.queue = []
  /-- By the end of a stop, all that was accepted has been handed over. -/
  stop_delivers : (batches (i.run (steps ++ (i.run steps).2.stopping)).1).flatten =
    accepted (i.run steps).1
  stop_ends : ∀ later, accepted ((i.run steps).2.stop.run later).1 = [] ∧
    batches ((i.run steps).2.stop.run later).1 = []

variable {i j : Ingestion} {s : Step}

theorem Move.refusal {e : IngestError} (m : Move i s (.refused e) j) : Refusal i s e j := by
  cases m with
  | reject hp hfull => exact .full _ hp hfull
  | shut hs hp => exact .closed _ hs hp
  | dismiss hw hp => exact .closedWaiting _ _ hw hp

theorem refusal_of_step {e : IngestError} (h : (i.step s).1 = .refused e) :
    Refusal i s e (i.step s).2 :=
  Move.refusal (h ▸ step_move i s)

/-- Where nobody waits, nothing has been given away, and the queue is full. -/
theorem Refusal.length_queue {v : Int} (h : Refusal i (.submit v) (.rejected v) j)
    (hw : i.waiting = []) : i.queue.length = i.intake.places := by
  cases h with
  | full v hp hfull => rw [← hfull, occupied_of_waiting hw]

theorem Move.granted_of_newcomer {v : Int} (m : Move i s (.accepted v) j)
    (hs : s = .submit v ∨ s = .attempt v) : i.granted = i.waiting.length := by
  cases m with
  | accept hs' hp h => exact granted_of_place h
  | grant hw hp hk => rcases hs with h | h <;> cases h

/-- The account of an ingestion that begins with an empty queue and whose batches fit into memory. -/
theorem account_of_fits (i : Ingestion) (hq : i.queue = []) (hc : i.intake.excessive = false)
    (steps : List Step) : Account i steps := by
  have hbalance : ∀ all, (batches (i.run all).1).flatten ++ (i.run all).2.queue =
      accepted (i.run all).1 := by
    intro all
    have h := conserved_run i hc all
    rw [hq] at h
    exact h
  have hstop : (i.run steps).2.stop = (i.run (steps ++ (i.run steps).2.stopping)).2 := by
    rw [run_append, stop_eq_run]
  have hfinished := phase_stop (i.run steps).2
  have hempty : (i.run steps).2.stop.queue = [] := by
    rw [hstop]
    refine queue_run_of_finished i ?_ _ (hstop ▸ hfinished)
    exact fun _ => hq
  exact {
    conserved := hbalance steps
    batch_length := fun b hb => batch_length_run i steps hb
    queue_length := by
      have hle := (i.run steps).2.length_le
      rw [intake_run] at hle
      exact hle
    refused := fun s e h => refusal_of_step h
    rejected_alone := by
      intro hw v h
      have hfull := (refusal_of_step h).length_queue hw
      rw [intake_run] at hfull
      exact hfull
    in_turn := fun s v hs h => Move.granted_of_newcomer (h ▸ step_move (i.run steps).2 s) hs
    waited := by
      intro left v
      obtain ⟨r, more, last, hwaits, hanswer, hend⟩ := submitWaiting_eq_run (i.run steps).2 left v
      refine ⟨r, more, last, hwaits, hanswer, ?_⟩
      rw [hend, List.append_assoc, run_append i steps]
    settle_eq := by
      rw [run_append]
      rfl
    stop_eq := hstop
    stop_finished := ⟨hfinished, hempty⟩
    stop_delivers := by
      have h := hbalance (steps ++ (i.run steps).2.stopping)
      rw [← hstop, hempty, List.append_nil] at h
      rw [h, run_append, accepted_append, accepted_stopping, List.append_nil]
    stop_ends := by
      intro later
      have hclosed : (i.run steps).2.stop.phase ≠ .serving := by
        rw [hfinished]
        exact Phase.noConfusion
      exact ⟨accepted_run_of_closed _ hclosed later, batches_run_of_finished _ hfinished later⟩ }

/-- A row of steps in which one event is accepted and the worker gets a turn. -/
def once : List Step := [.submit 0, .turn]

/-- The event has left the queue, be it to the node or with a worker that failed. -/
theorem run_once (n : Node) (c : Intake) :
    accepted ((start n c).run once).1 = [0] ∧ ((start n c).run once).2.queue = [] := by
  have hplace : (start n c).occupied < (start n c).intake.places := by
    rw [occupied_of_waiting rfl]
    exact c.places_pos
  have hsubmit : (start n c).step (.submit 0) =
      (.accepted 0, (start n c).accept 0 (room_of_occupied hplace)) := by
    rw [step, submit_of_place rfl hplace]
  generalize hi : (start n c).accept 0 (room_of_occupied hplace) = i at hsubmit
  obtain ⟨hserving, hsignal, hqueue, hintake⟩ :
      i.phase = .serving ∧ i.signalled = false ∧ i.queue = [0] ∧ i.intake = c := by
    subst hi
    exact ⟨rfl, rfl, rfl, rfl⟩
  rw [once, run_cons, hsubmit, run_cons]
  cases hc : c.excessive with
  | true =>
    rw [step, turn_of_excessive hserving (hintake ▸ hc)]
    exact ⟨rfl, rfl⟩
  | false =>
    have hhanding : i.Handing := Or.inl ⟨hserving, hintake ▸ hc, hsignal⟩
    have hne : i.queue ≠ [] := by
      rw [hqueue]
      exact List.cons_ne_nil 0 []
    rw [step, turn_of_handing hhanding hne]
    refine ⟨rfl, ?_⟩
    change i.handOver.queue = []
    rw [queue_handOver, hqueue, hintake]
    exact List.drop_eq_nil_of_le c.batch_pos

end WindowedMean.Ingestion
