import WindowedMean.Proofs.Filling
import WindowedMean.Proofs.Rebatching

/-! The counters of one node set against what happened to it.

    Callers count what they were answered, the worker counts what became of each batch:

        submitted   answers that said yes        processed   events of batches that were taken
        rejected    answers that said no         evicted     events that left the window
                                                 failures    batches that were dropped

    A step adds to a counter what its own event says, so a run adds what its events say (`Tallies`).
    What was submitted is then processed, dropped or still in the queue, and what was processed was
    evicted or is in the window still. Only where a batch fits into no memory is the queue lost, and
    what had been submitted is nowhere. -/

namespace WindowedMean.Ingestion

/-- The counters of `j` are those of `i` and what the events in between say. -/
structure Tallies (i : Ingestion) (es : List Event) (j : Ingestion) : Prop where
  submitted : j.counters.submitted.count =
    i.counters.submitted.count + (answers es).countP (·.isOk)
  rejected : j.counters.rejected.count =
    i.counters.rejected.count + (answers es).countP (!·.isOk)
  failures : j.counters.failures.count = i.counters.failures.count + (dropped es).length
  processed : j.counters.processed.count =
    i.counters.processed.count + (taken es).flatten.length
  /-- What enters the window leaves it or stays. -/
  evicted : j.counters.evicted.count + j.node.window.residents.length =
    i.counters.evicted.count + i.node.window.residents.length + (taken es).flatten.length

variable {i j k : Ingestion} {s : Step} {e : Event} {es es' : List Event} {seen : Bool}

theorem Tallies.trans (h : Tallies i es j) (h' : Tallies j es' k) : Tallies i (es ++ es') k := by
  obtain ⟨hs, hr, hf, hp, hv⟩ := h
  obtain ⟨hs', hr', hf', hp', hv'⟩ := h'
  simp only [answers, dropped, taken] at *
  constructor <;> simp only [answers, dropped, taken, List.filterMap_append, List.countP_append,
    List.flatMap_append, List.flatten_append, List.length_append] <;> omega

theorem tallies_nil (i : Ingestion) : Tallies i [] i := ⟨rfl, rfl, rfl, rfl, rfl⟩

/-- A step adds to the counters what its event says. -/
theorem Move.tallies (m : Move i s e j) (hn : i.node.Follows seen) : Tallies i [e] j := by
  cases m with
  | hand hp hq =>
    rcases handOver_cases hn with ⟨o, hr, hw, -, hc⟩ | ⟨o, hr, hw, -, hc⟩
    · have hcut := congrArg List.length (i.node.window.displaced_append_residents i.nextBatch)
      simp only [List.length_append] at hcut
      rw [hr]
      refine ⟨by rw [hc]; rfl, by rw [hc]; rfl, by rw [hc]; rfl, ?_, ?_⟩
      · rw [hc]
        simp [taken, Event.taken]
      · rw [hc, hw]
        simp only [taken, Event.taken, List.flatMap_singleton, List.flatten_singleton,
          Tally.count_bump]
        omega
    · rw [hr]
      refine ⟨by rw [hc]; rfl, by rw [hc]; rfl, by rw [hc]; rfl, by rw [hc]; rfl, ?_⟩
      rw [hc, hw]
      rfl
  | _ => exact ⟨rfl, rfl, rfl, rfl, rfl⟩

/-- So does a run. -/
theorem tallies_run (hn : ∃ seen, i.node.Follows seen) (steps : List Step) :
    Tallies i (i.run steps).1 (i.run steps).2 := by
  induction steps generalizing i with
  | nil => exact tallies_nil i
  | cons s steps ih =>
    obtain ⟨seen, hn⟩ := hn
    have m := step_move i s
    rw [run_cons, ← List.singleton_append]
    exact (m.tallies hn).trans (ih (m.node_cases hn).1)

/-! ### What callers and operators do -/

/-- What may be asked of an ingestion, and a turn of its worker. `left` is what is left of the shift of
    a caller who waits. -/
inductive Call where
  | submit (v : Int)
  | submitWaiting (left : Nat) (v : Int)
  | settle
  | signal
  | stop
  | turn
  deriving DecidableEq, Repr

/-- What comes of a call: the answer to a caller, if there was one. -/
def call (i : Ingestion) : Call → Option (Except IngestError Unit) × Ingestion
  | .submit v => (some (i.submit v).1, (i.submit v).2)
  | .submitWaiting left v => (some (i.submitWaiting left v).1, (i.submitWaiting left v).2.2)
  | .settle => (none, i.settle)
  | .signal => (none, i.signal)
  | .stop => (none, i.stop)
  | .turn => (none, i.turn.2)

/-- A row of calls: all answers, and the end. -/
def callAll (i : Ingestion) : List Call → List (Except IngestError Unit) × Ingestion
  | [] => ([], i)
  | c :: calls =>
    let (r, i') := i.call c
    let (rs, i'') := i'.callAll calls
    (r.toList ++ rs, i'')

theorem callAll_cons (i : Ingestion) (c : Call) (calls : List Call) :
    i.callAll (c :: calls) =
      ((i.call c).1.toList ++ ((i.call c).2.callAll calls).1, ((i.call c).2.callAll calls).2) := rfl

theorem Move.waiting_of_submit {v : Int} (m : Move i (.submit v) e j) : j.waiting = i.waiting := by
  cases m <;> rfl

/-- A call is a row of steps. Where nobody else waits, who called is answered what the events of these
    steps say, and nobody waits afterwards. -/
theorem call_eq_run (i : Ingestion) (c : Call) :
    ∃ steps, (i.call c).2 = (i.run steps).2 ∧ (i.waiting = [] →
      (i.call c).1.toList = answers (i.run steps).1 ∧ (i.run steps).2.waiting = []) := by
  cases c with
  | submit v =>
    have hline := (step_move i (.submit v)).waiting_of_submit
    refine ⟨[.submit v], ?_, fun hw => ⟨?_, hline.trans hw⟩⟩
    · rw [run_cons, step, call]
      rcases i.submit v with ⟨_ | _, j⟩ <;> rfl
    · rw [run_cons, step, call]
      rcases i.submit v with ⟨_ | _, j⟩ <;> rfl
  | submitWaiting left v =>
    obtain ⟨r, steps, last, hwaits, hr, hend⟩ := submitWaiting_eq_run i left v
    refine ⟨steps ++ [last], hend, fun hw => ⟨?_, ?_⟩⟩
    · have hothers := hwaits.others
      rw [hw, List.length_nil, Nat.le_zero, List.length_eq_zero_iff] at hothers
      rw [run_concat, answers_append, hothers, hwaits.told, call, hr]
      cases r <;> rfl
    · exact hwaits.line.elim (·.trans hw) id
  | settle =>
    refine ⟨turns i.enough, rfl, fun hw => ?_⟩
    exact ⟨(answers_turns i _).symm, (waiting_turns i _).trans hw⟩
  | signal => exact ⟨[.signal], rfl, fun hw => ⟨rfl, hw⟩⟩
  | stop =>
    refine ⟨i.stopping, i.stop_eq_run, fun hw => ?_⟩
    rw [stopping, run_cons]
    exact ⟨(answers_turns i.signal i.enough).symm, (waiting_turns i.signal i.enough).trans hw⟩
  | turn =>
    refine ⟨[.turn], ?_, fun hw => ⟨(answers_turns i 1).symm, (waiting_turns i 1).trans hw⟩⟩
    rw [run_cons, step, call]
    rcases i.turn with ⟨_ | h, j⟩ <;> rfl

theorem callAll_eq_run (i : Ingestion) (hw : i.waiting = []) (calls : List Call) :
    ∃ steps, (i.callAll calls).2 = (i.run steps).2 ∧
      (i.callAll calls).1 = answers (i.run steps).1 := by
  induction calls generalizing i with
  | nil => exact ⟨[], rfl, rfl⟩
  | cons c calls ih =>
    obtain ⟨steps, hend, halone⟩ := call_eq_run i c
    obtain ⟨hanswer, hnobody⟩ := halone hw
    obtain ⟨later, hend', hanswer'⟩ := ih (i.call c).2 (hend ▸ hnobody)
    rw [hend] at hend' hanswer'
    refine ⟨steps ++ later, ?_, ?_⟩
    · rw [run_append, callAll_cons, hend]
      exact hend'
    · rw [run_append, answers_append, ← hanswer, ← hanswer', callAll_cons, hend]

/-! ### The ledger -/

/-- What the counters of an ingestion say about the events that led to it, but for the queue. -/
structure Counted (es : List Event) (i : Ingestion) : Prop where
  submitted_eq : i.counters.submitted.count = (answers es).countP (·.isOk)
  rejected_eq : i.counters.rejected.count = (answers es).countP (!·.isOk)
  failures_eq : i.counters.failures.count = (dropped es).length
  window_eq : (i.counters.processed.count : Int) - i.counters.evicted.count =
    i.node.window.residents.length
  mean_eq : i.node.mean.count = i.node.window.residents.length

/-- What was submitted was processed, or was dropped, or is still in the queue. -/
def Balanced (es : List Event) (i : Ingestion) : Prop :=
  i.counters.submitted.count =
    i.counters.processed.count + (dropped es).flatten.length + i.queue.length

variable {capacity : Nat}

theorem tallies_ofCapacity (id : Nat) (h : 0 < capacity) (c : Intake) (steps : List Step) :
    Tallies (ofCapacity id h c) ((ofCapacity id h c).run steps).1
      ((ofCapacity id h c).run steps).2 :=
  tallies_run ⟨false, Node.follows_ofWindow id h⟩ steps

theorem counted_run (id : Nat) (h : 0 < capacity) (c : Intake) (steps : List Step) :
    Counted ((ofCapacity id h c).run steps).1 ((ofCapacity id h c).run steps).2 := by
  obtain ⟨hs, hr, hf, hp, hv⟩ := tallies_ofCapacity id h c steps
  obtain ⟨seen, hfollows⟩ := (filled_run id h c steps).follows
  refine ⟨hs.trans (Nat.zero_add _), hr.trans (Nat.zero_add _), hf.trans (Nat.zero_add _), ?_, ?_⟩
  · have hp' := hp.trans (Nat.zero_add _)
    have hv' := hv.trans (Nat.zero_add _)
    omega
  · exact congrArg Snapshot.count hfollows.getD_fetch

theorem balanced_run (id : Nat) (h : 0 < capacity) {c : Intake} (hc : c.excessive = false)
    (steps : List Step) :
    Balanced ((ofCapacity id h c).run steps).1 ((ofCapacity id h c).run steps).2 := by
  obtain ⟨hs, -, -, hp, -⟩ := tallies_ofCapacity id h c steps
  have hbalance := congrArg List.length (conserved_run (ofCapacity id h c) hc steps)
  have hqueue : (ofCapacity id h c).queue = [] := rfl
  rw [List.length_append, length_flatten_batches, hqueue, List.nil_append, ← countP_answers]
    at hbalance
  have hs' := hs.trans (Nat.zero_add _)
  have hp' := hp.trans (Nat.zero_add _)
  rw [Balanced]
  omega

/-- The counters of a node that is only fed by its worker, after any row of steps, and so after any
    row of calls. All that they say of answers, of dropped batches and of the window is exact. What
    was submitted is accounted for in every run exactly if a batch fits into memory; if none does, the
    worker fails on its first turn and an event that was counted as submitted is lost. The queue may
    have any size, also one that `startChecked` refuses. -/
theorem counters_ledger (id : Nat) (h : 0 < capacity) (c : Intake) :
    (∀ steps, Counted ((ofCapacity id h c).run steps).1 ((ofCapacity id h c).run steps).2) ∧
    ((∀ steps, Balanced ((ofCapacity id h c).run steps).1 ((ofCapacity id h c).run steps).2) ↔
      c.excessive = false) ∧
    ∀ calls, ∃ steps, ((ofCapacity id h c).callAll calls).2 = ((ofCapacity id h c).run steps).2 ∧
      ((ofCapacity id h c).callAll calls).1 = answers ((ofCapacity id h c).run steps).1 := by
  refine ⟨counted_run id h c, ⟨fun hall => ?_, fun hc => balanced_run id h hc⟩,
    callAll_eq_run (ofCapacity id h c) rfl⟩
  cases hc : c.excessive with
  | false => rfl
  | true =>
    have hlost := hall once
    obtain ⟨haccepted, hempty⟩ : accepted ((ofCapacity id h c).run once).1 = [0] ∧
      ((ofCapacity id h c).run once).2.queue = [] := run_once _ c
    have hnone := batches_run_of_excessive (ofCapacity id h c) hc Phase.noConfusion once
    have hlengths := length_flatten_batches ((ofCapacity id h c).run once).1
    obtain ⟨hs, -, -, hp, -⟩ := tallies_ofCapacity id h c once
    rw [countP_answers, haccepted] at hs
    rw [hnone] at hlengths
    have hs' := hs.trans (Nat.zero_add _)
    have hp' := hp.trans (Nat.zero_add _)
    rw [Balanced, hempty] at hlost
    simp only [List.flatten_nil, List.length_nil, List.length_singleton] at hlengths hlost hs'
    omega

/-- Three events are refused with their batch, one does not fit into the queue, and one would have
    taken the place of a caller who waits. -/
theorem counters_ledger_of_refusal :
    let i := (ofCapacity 4 Nat.two_pos ⟨3, 3⟩).run [.submit 1, .submit greatest, .submit greatest,
      .submit 5, .turn, .submit 7, .submit 8, .submit 9, .attempt 6, .turn, .submit 4, .submit 2,
      .submit 3, .retry 0]
    i.2.counters.submitted.count = 9 ∧ i.2.counters.rejected.count = 2 ∧
      i.2.counters.failures.count = 1 ∧ dropped i.1 = [[1, greatest, greatest]] ∧
      Balanced i.1 i.2 ∧ i.2.node.mean.count = 2 := by
  obtain ⟨hcounted, hbalanced, -⟩ := counters_ledger 4 Nat.two_pos ⟨3, 3⟩
  refine ⟨by decide +kernel, by decide +kernel, by decide +kernel, by decide +kernel, ?_, ?_⟩
  · exact hbalanced.2 (by decide) _
  · rw [(hcounted _).mean_eq]
    decide +kernel

end WindowedMean.Ingestion
