import WindowedMean.Proofs.Turns

/-! Events are neither lost nor doubled on their way through the queue, and keep their order.

    Over one step, what is handed over and what is left in the queue is what was in the queue and
    what came in:

        handed ++ queue after  =  queue before ++ accepted

    The only step for which this fails is the one in which the worker fails, so it holds for every
    run of every ingestion whose batches fit into memory (`conserved_run`). -/

namespace WindowedMean.Ingestion

/-- The event that a step accepted, if any. -/
def Event.entered : Event → List Int
  | .accepted v => [v]
  | _ => []

/-- The batch that a step handed over, if any. -/
def Event.batches : Event → List (List Int)
  | .handed h => [h.batch]
  | _ => []

/-- What a caller was answered in an event, if anybody was. -/
def Event.answer? : Event → Option (Except IngestError Unit)
  | .accepted _ => some (.ok ())
  | .refused e => some (.error e)
  | _ => none

/-- The events accepted in a run, in the order of their acceptance. -/
def accepted (es : List Event) : List Int := es.flatMap Event.entered

/-- The batches handed over in a run, in their order. -/
def batches (es : List Event) : List (List Int) := es.flatMap Event.batches

/-- All answers that callers got in a run. -/
def answers (es : List Event) : List (Except IngestError Unit) := es.filterMap Event.answer?

theorem accepted_append (es es' : List Event) : accepted (es ++ es') = accepted es ++ accepted es' :=
  List.flatMap_append

theorem answers_append (es es' : List Event) : answers (es ++ es') = answers es ++ answers es' :=
  List.filterMap_append

/-- Those who were answered yes have got their event in. -/
theorem countP_answers (es : List Event) :
    (answers es).countP (·.isOk) = (accepted es).length := by
  induction es with
  | nil => rfl
  | cons e es ih =>
    rw [accepted, List.flatMap_cons, List.length_append, ← accepted, ← ih]
    cases e with
    | accepted v =>
      change (.ok () :: answers es : List (Except IngestError Unit)).countP (·.isOk) = _
      rw [List.countP_cons_of_pos rfl]
      exact Nat.add_comm ..
    | refused e =>
      change (.error e :: answers es : List (Except IngestError Unit)).countP (·.isOk) = _
      rw [List.countP_cons_of_neg Bool.false_ne_true]
      exact (Nat.zero_add _).symm
    | _ => exact (Nat.zero_add _).symm

variable {i j : Ingestion} {s : Step} {e : Event}

theorem run_cons (i : Ingestion) (s : Step) (steps : List Step) :
    i.run (s :: steps) =
      ((i.step s).1 :: ((i.step s).2.run steps).1, ((i.step s).2.run steps).2) := rfl

theorem run_append (i : Ingestion) (steps steps' : List Step) :
    i.run (steps ++ steps') =
      ((i.run steps).1 ++ ((i.run steps).2.run steps').1, ((i.run steps).2.run steps').2) := by
  induction steps generalizing i with
  | nil => rfl
  | cons s steps ih => rw [List.cons_append, run_cons, run_cons, ih, List.cons_append]

/-! ### What one step keeps -/

theorem Move.intake_eq (m : Move i s e j) : j.intake = i.intake := by
  cases m with
  | hand hp hq => exact i.intake_handOver
  | _ => rfl

/-- The balance of one step, which is kept unless the worker fails. -/
theorem Move.conserved_of_kept (m : Move i s e j)
    (h : i.intake.excessive = false ∨ i.phase ≠ .serving ∨ j.phase = .serving) :
    e.batches.flatten ++ j.queue = i.queue ++ e.entered := by
  cases m with
  | hand hp hq =>
    change [i.nextBatch].flatten ++ i.handOver.queue = i.queue ++ []
    rw [List.flatten_singleton, i.nextBatch_append, List.append_nil]
  | fail hp he =>
    rcases h with hc | hclosed | hserving
    · rw [hc] at he
      cases he
    · exact absurd hp hclosed
    · cases hserving
  | accept hs hp h => rfl
  | grant hw hp hk => rfl
  | _ => exact (List.append_nil _).symm

theorem Move.conserved (m : Move i s e j) (hc : i.intake.excessive = false) :
    e.batches.flatten ++ j.queue = i.queue ++ e.entered :=
  m.conserved_of_kept (Or.inl hc)

theorem Move.batch_length (m : Move i s e j) {b : List Int} (hb : b ∈ e.batches) :
    1 ≤ b.length ∧ b.length ≤ i.intake.batch := by
  cases m with
  | hand hp hq =>
    obtain rfl := List.mem_singleton.1 hb
    exact ⟨length_nextBatch_pos hq, i.length_nextBatch_le⟩
  | _ => cases hb

/-- A node that is handed nothing stays as it is. -/
theorem Move.node_of_batches (m : Move i s e j) (hb : e.batches = []) : j.node = i.node := by
  cases m with
  | hand hp hq => cases hb
  | _ => rfl

/-- A worker that is not draining and whose batches do not fit into memory hands nothing over. -/
theorem Move.batches_of_excessive (m : Move i s e j) (hc : i.intake.excessive = true)
    (hp : i.phase ≠ .draining) : e.batches = [] ∧ j.phase ≠ .draining := by
  cases m with
  | hand hh hq =>
    rcases hh with ⟨-, he, -⟩ | hd
    · rw [hc] at he
      cases he
    · exact absurd hd hp
  | close hs he =>
    rw [hc] at he
    cases he
  | fail hs he => exact ⟨rfl, Phase.noConfusion⟩
  | finish hd hq => exact absurd hd hp
  | _ => exact ⟨rfl, hp⟩

/-- A closed queue takes nothing more in, and does not open again. -/
theorem Move.entered_of_closed (m : Move i s e j) (hp : i.phase ≠ .serving) :
    e.entered = [] ∧ j.phase ≠ .serving := by
  cases m with
  | accept hs hv h => exact absurd hv hp
  | grant hw hv hk => exact absurd hv hp
  | hand hh hq => exact ⟨rfl, i.phase_handOver ▸ hp⟩
  | fail hv he => exact absurd hv hp
  | close hv he hc => exact absurd hv hp
  | finish hd hq => exact ⟨rfl, Phase.noConfusion⟩
  | _ => exact ⟨rfl, hp⟩

/-- A worker that has finished hands nothing over, and stays so. -/
theorem Move.batches_of_finished (m : Move i s e j) (hp : i.phase = .finished) :
    e.batches = [] ∧ j.phase = .finished := by
  cases m with
  | hand hh hq =>
    rcases hh with ⟨hv, -⟩ | hd
    · rw [hp] at hv
      cases hv
    · rw [hp] at hd
      cases hd
  | close hv he hc =>
    rw [hp] at hv
    cases hv
  | fail hv he => exact ⟨rfl, rfl⟩
  | finish hd hq => exact ⟨rfl, rfl⟩
  | _ => exact ⟨rfl, hp⟩

/-- A worker that has finished has left nothing in the queue. -/
theorem Move.queue_of_finished (m : Move i s e j) (hi : i.phase = .finished → i.queue = [])
    (hj : j.phase = .finished) : j.queue = [] := by
  cases m with
  | accept hs hv h => exact Phase.noConfusion (hv.symm.trans hj)
  | grant hw hv hk => exact Phase.noConfusion (hv.symm.trans hj)
  | hand hh hq => exact absurd (hi (i.phase_handOver ▸ hj)) hq
  | fail hv he => rfl
  | close hv he hc => cases hj
  | finish hd hq => exact hq
  | _ => exact hi hj

/-! ### What a run keeps -/

theorem intake_run (i : Ingestion) (steps : List Step) : (i.run steps).2.intake = i.intake := by
  induction steps generalizing i with
  | nil => rfl
  | cons s steps ih => rw [run_cons, ih, (step_move i s).intake_eq]

theorem phase_run_of_closed (i : Ingestion) (hp : i.phase ≠ .serving) (steps : List Step) :
    (i.run steps).2.phase ≠ .serving := by
  induction steps generalizing i with
  | nil => exact hp
  | cons s steps ih => exact ih (i.step s).2 ((step_move i s).entered_of_closed hp).2

/-- The balance of a run in which the worker does not fail. -/
theorem conserved_of_kept (i : Ingestion) (steps : List Step)
    (h : i.intake.excessive = false ∨ i.phase ≠ .serving ∨ (i.run steps).2.phase = .serving) :
    (batches (i.run steps).1).flatten ++ (i.run steps).2.queue =
      i.queue ++ accepted (i.run steps).1 := by
  induction steps generalizing i with
  | nil => exact (List.append_nil _).symm
  | cons s steps ih =>
    have m := step_move i s
    have hnow : i.intake.excessive = false ∨ i.phase ≠ .serving ∨ (i.step s).2.phase = .serving :=
      h.imp_right (Or.imp_right fun hserving => by_contra fun hclosed =>
        phase_run_of_closed (i.step s).2 hclosed steps hserving)
    have hthen := h.imp (fun hc => m.intake_eq ▸ hc)
      (Or.imp_left fun hclosed => (m.entered_of_closed hclosed).2)
    have hstep := m.conserved_of_kept hnow
    have hlater := ih (i.step s).2 hthen
    rw [run_cons, batches, accepted, List.flatMap_cons, List.flatMap_cons, List.flatten_append,
      List.append_assoc]
    rw [batches, accepted] at hlater
    rw [hlater, ← List.append_assoc, hstep, List.append_assoc]

theorem conserved_run (i : Ingestion) (hc : i.intake.excessive = false) (steps : List Step) :
    (batches (i.run steps).1).flatten ++ (i.run steps).2.queue =
      i.queue ++ accepted (i.run steps).1 :=
  conserved_of_kept i steps (Or.inl hc)

theorem batch_length_run (i : Ingestion) (steps : List Step) {b : List Int}
    (hb : b ∈ batches (i.run steps).1) : 1 ≤ b.length ∧ b.length ≤ i.intake.batch := by
  induction steps generalizing i with
  | nil => cases hb
  | cons s steps ih =>
    rw [run_cons, batches, List.flatMap_cons] at hb
    rcases List.mem_append.1 hb with hb | hb
    · exact (step_move i s).batch_length hb
    · exact (step_move i s).intake_eq ▸ ih _ hb

theorem node_run_of_batches {i : Ingestion} {steps : List Step}
    (hb : batches (i.run steps).1 = []) : (i.run steps).2.node = i.node := by
  induction steps generalizing i with
  | nil => rfl
  | cons s steps ih =>
    rw [run_cons, batches, List.flatMap_cons] at hb
    obtain ⟨hnow, hlater⟩ := List.append_eq_nil_iff.1 hb
    exact (ih hlater).trans ((step_move i s).node_of_batches hnow)

theorem batches_run_of_excessive (i : Ingestion) (hc : i.intake.excessive = true)
    (hp : i.phase ≠ .draining) (steps : List Step) : batches (i.run steps).1 = [] := by
  induction steps generalizing i with
  | nil => rfl
  | cons s steps ih =>
    obtain ⟨he, hp'⟩ := (step_move i s).batches_of_excessive hc hp
    have hlater := ih (i.step s).2 ((step_move i s).intake_eq ▸ hc) hp'
    rw [run_cons, batches, List.flatMap_cons, he]
    exact hlater

theorem accepted_run_of_closed (i : Ingestion) (hp : i.phase ≠ .serving) (steps : List Step) :
    accepted (i.run steps).1 = [] := by
  induction steps generalizing i with
  | nil => rfl
  | cons s steps ih =>
    obtain ⟨he, hp'⟩ := (step_move i s).entered_of_closed hp
    rw [run_cons, accepted, List.flatMap_cons, he]
    exact ih _ hp'

theorem batches_run_of_finished (i : Ingestion) (hp : i.phase = .finished) (steps : List Step) :
    batches (i.run steps).1 = [] := by
  induction steps generalizing i with
  | nil => rfl
  | cons s steps ih =>
    obtain ⟨he, hp'⟩ := (step_move i s).batches_of_finished hp
    rw [run_cons, batches, List.flatMap_cons, he]
    exact ih _ hp'

theorem queue_run_of_finished (i : Ingestion) (hi : i.phase = .finished → i.queue = [])
    (steps : List Step) (hj : (i.run steps).2.phase = .finished) : (i.run steps).2.queue = [] := by
  induction steps generalizing i with
  | nil => exact hi hj
  | cons s steps ih => exact ih _ ((step_move i s).queue_of_finished hi) hj

end WindowedMean.Ingestion
