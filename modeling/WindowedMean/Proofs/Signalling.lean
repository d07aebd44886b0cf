import WindowedMean.Proofs.Counting
import WindowedMean.Proofs.Emptying

/-! Asking workers to stop: in what order, and how often.

    A signal only raises a flag, and a worker looks at its flag once, on the turn that closes its
    queue. So it does not matter how often a worker was asked after the first time, nor how many turns
    it had before that:

        turn … turn  signal  turn … signal … turn  =  stop

    No worker touches what belongs to another. Whoever stops several of them, and in whatever order
    they get their turns meanwhile, leaves each of them as if it had been stopped alone. -/

namespace WindowedMean.Ingestion

variable {i j : Ingestion} {s : Step} {e : Event}

/-! ### A flag that stays up -/

theorem Move.signalled (m : Move i s e j) (hs : i.signalled = true) : j.signalled = true := by
  cases m with
  | hand hp hq => exact i.signalled_handOver.trans hs
  | signal => rfl
  | _ => exact hs

theorem signalled_run (hs : i.signalled = true) (steps : List Step) :
    (i.run steps).2.signalled = true := by
  induction steps generalizing i with
  | nil => exact hs
  | cons s steps ih => exact ih ((step_move i s).signalled hs)

/-- What the steps of a run brought about, but for the signals. -/
def told (i : Ingestion) : List Step → List (Step × Event)
  | [] => []
  | s :: steps =>
    if s = .signal then (i.step s).2.told steps else (s, (i.step s).1) :: (i.step s).2.told steps

theorem told_append (i : Ingestion) (steps later : List Step) :
    i.told (steps ++ later) = i.told steps ++ (i.run steps).2.told later := by
  induction steps generalizing i with
  | nil => rfl
  | cons s steps ih =>
    rw [List.cons_append, told, told, ih]
    split <;> rfl

/-- Once the flag is up, one may leave out all signals. -/
theorem run_filter_signal (hs : i.signalled = true) (steps : List Step) :
    (i.run (steps.filter (· ≠ .signal))).2 = (i.run steps).2 ∧
      i.told (steps.filter (· ≠ .signal)) = i.told steps := by
  induction steps generalizing i with
  | nil => exact ⟨rfl, rfl⟩
  | cons s steps ih =>
    by_cases hsignal : s = .signal
    · subst hsignal
      have hstep : i.step .signal = (.nothing, i) :=
        congrArg (Prod.mk Event.nothing) (signal_of_signalled hs)
      rw [List.filter_cons_of_neg (by decide), run_cons, told, if_pos rfl, hstep]
      exact ih hs
    · obtain ⟨hend, htold⟩ := ih ((step_move i s).signalled hs)
      rw [List.filter_cons_of_pos (by simpa using hsignal), run_cons, run_cons, told, told, hend,
        htold]
      exact ⟨rfl, rfl⟩

theorem call_of_signalled (hs : i.signalled = true) (c : Call) :
    (i.call c).2.signalled = true := by
  obtain ⟨steps, hend, -⟩ := call_eq_run i c
  rw [hend]
  exact signalled_run hs steps

theorem callAll_filter_signal (hs : i.signalled = true) (calls : List Call) :
    i.callAll (calls.filter (· ≠ .signal)) = i.callAll calls := by
  induction calls generalizing i with
  | nil => rfl
  | cons c calls ih =>
    by_cases hsignal : c = .signal
    · subst hsignal
      have hcall : i.call .signal = (none, i) := congrArg (Prod.mk none) (signal_of_signalled hs)
      rw [List.filter_cons_of_neg (by decide), callAll_cons, hcall]
      exact ih hs
    · rw [List.filter_cons_of_pos (by simpa using hsignal), callAll_cons, callAll_cons,
        ih (call_of_signalled hs c)]

theorem callAll_append (i : Ingestion) (calls later : List Call) :
    i.callAll (calls ++ later) =
      ((i.callAll calls).1 ++ ((i.callAll calls).2.callAll later).1,
        ((i.callAll calls).2.callAll later).2) := by
  induction calls generalizing i with
  | nil => rfl
  | cons c calls ih => rw [List.cons_append, callAll_cons, callAll_cons, ih, List.append_assoc]

/-! ### Turns before the signal -/

theorem stop_signal (i : Ingestion) : i.signal.stop = i.stop :=
  congrArg Ingestion.settle (signal_of_signalled rfl)

theorem handOver_signal (i : Ingestion) : i.signal.handOver = i.handOver.signal := by
  have hn : i.signal.cut.node = i.cut.node := rfl
  have hb : i.signal.nextBatch = i.nextBatch := rfl
  rw [handOver, handOver, apply, apply, hn, hb]
  rcases i.cut.node.process i.nextBatch with ⟨_ | _, n⟩ <;> rfl

/-- A worker that does not look at its flag takes the same turn with it and without it. -/
theorem turn_signal (h : i.phase ≠ .serving ∨ i.intake.excessive = true ∨ i.signalled = true) :
    i.signal.turn.2 = i.turn.2.signal := by
  by_cases hs : i.signalled = true
  · rw [signal_of_signalled hs, ← snd_step_turn,
      signal_of_signalled ((step_move i .turn).signalled hs)]
  cases hp : i.phase with
  | finished => rw [turn_of_finished hp, turn_of_finished (i := i.signal) hp]
  | draining =>
    by_cases hq : i.queue = []
    · rw [turn_of_draining_empty hp hq, turn_of_draining_empty (i := i.signal) hp hq]
      rfl
    · rw [turn_of_handing (Or.inr hp) hq, turn_of_handing (i := i.signal) (Or.inr hp) hq]
      exact i.handOver_signal
  | serving =>
    have he : i.intake.excessive = true := by
      rcases h with h | h | h
      · exact absurd hp h
      · exact h
      · exact absurd h hs
    rw [turn_of_excessive hp he, turn_of_excessive (i := i.signal) hp he]
    rfl

/-- A turn is one that the worker would have had on its way to the end. -/
theorem stop_turn (i : Ingestion) : i.turn.2.stop = i.stop := by
  by_cases h : i.phase ≠ .serving ∨ i.intake.excessive = true ∨ i.signalled = true
  · have hrun : i.turn.2.stop = (i.signal.run (turns (i.turn.2.enough + 1))).2 := by
      rw [turns, List.replicate_succ, run_cons, snd_step_turn, turn_signal h]
      rfl
    rw [hrun]
    exact stop_eq_of_finished (hrun ▸ phase_stop i.turn.2)
  · simp only [not_or, not_not, Bool.not_eq_true] at h
    obtain ⟨hp, he, hs⟩ := h
    by_cases hq : i.queue = []
    · rw [turn_of_serving_empty hp he hs hq]
      by_cases ha : i.abandoned ∧ i.waiting = []
      · rw [if_pos ha, (stop_of_empty hq).2, (stop_of_empty (i := i.close) hq).2]
        rfl
      · rw [if_neg ha]
    · have hnext : i.handOver.stop = i.handOver.handAll.2.halted :=
        (stop_at_once (i.phase_handOver.trans hp) (i.intake_handOver ▸ he)).2
      rw [turn_of_handing (Or.inl ⟨hp, he, hs⟩) hq, hnext, (stop_at_once hp he).2,
        handAll_of_ne hq]

/-- However signals and turns alternate, a worker that was asked to stop and has finished is as if it
    had been stopped at once. -/
theorem run_eq_stop {steps : List Step} (hall : ∀ s ∈ steps, s = .signal ∨ s = .turn)
    (hs : (i.run steps).2.signalled = true) (hf : (i.run steps).2.phase = .finished) :
    (i.run steps).2 = i.stop := by
  induction steps generalizing i with
  | nil =>
    have hup : i.signal = i := signal_of_signalled hs
    have hend := stop_eq_of_finished (i := i) (n := 0) (by rw [hup]; exact hf)
    rw [hup] at hend
    exact hend
  | cons s steps ih =>
    have hlater := ih (i := (i.step s).2) (fun t ht => hall t (List.mem_cons_of_mem _ ht)) hs hf
    rw [run_cons, hlater]
    rcases hall s (List.mem_cons_self ..) with rfl | rfl
    · exact i.stop_signal
    · rw [snd_step_turn]
      exact i.stop_turn

/-! ### A group -/

/-- What may happen while a group is stopped: a worker is asked to stop, or has a turn. -/
inductive Act where
  | signal (k : Nat)
  | turn (k : Nat)
  deriving DecidableEq, Repr

/-- The step that an act is for the worker at a position. -/
def Act.stepOf? (k : Nat) : Act → Option Step
  | .signal k' => if k' = k then some .signal else none
  | .turn k' => if k' = k then some .turn else none

/-- One act. -/
def act (g : List Ingestion) : Act → List Ingestion
  | .signal k => g.modify k signal
  | .turn k => g.modify k fun i => i.turn.2

/-- A row of acts. -/
def actAll (g : List Ingestion) (acts : List Act) : List Ingestion := acts.foldl act g

theorem actAll_concat (g : List Ingestion) (acts : List Act) (a : Act) :
    actAll g (acts ++ [a]) = act (actAll g acts) a := by
  rw [actAll, List.foldl_append]
  rfl

/-- What an act does to a worker. -/
theorem getElem?_act (g : List Ingestion) (a : Act) (k : Nat) :
    (act g a)[k]? = g[k]?.map fun i => (i.run (a.stepOf? k).toList).2 := by
  have hid : (fun i : Ingestion => (i.run []).2) = id := rfl
  cases a with
  | signal j =>
    change (g.modify j signal)[k]? = _
    rw [List.getElem?_modify, Act.stepOf?]
    split <;> rfl
  | turn j =>
    change (g.modify j fun i => i.turn.2)[k]? = _
    rw [List.getElem?_modify, Act.stepOf?]
    split
    · exact congrArg (Option.map · _) (funext fun i => i.snd_step_turn.symm)
    · rfl

/-- What becomes of a worker is up to the acts that are its own. -/
theorem getElem?_actAll (g : List Ingestion) (acts : List Act) (k : Nat) :
    (actAll g acts)[k]? = g[k]?.map fun i => (i.run (acts.filterMap (Act.stepOf? k))).2 := by
  induction acts using List.reverseRecOn with
  | nil => exact (congrFun Option.map_id _).symm
  | append_singleton acts a ih =>
    rw [actAll_concat, getElem?_act, ih, Option.map_map, List.filterMap_append]
    refine congrArg (Option.map · _) (funext fun i => ?_)
    rw [run_append]
    have hone : [a].filterMap (Act.stepOf? k) = (a.stepOf? k).toList := by
      rw [List.filterMap_cons]
      cases a.stepOf? k <;> rfl
    rw [hone]
    rfl

theorem mem_filterMap_stepOf? {acts : List Act} {k : Nat} (h : s ∈ acts.filterMap (Act.stepOf? k)) :
    s = .signal ∨ s = .turn := by
  obtain ⟨a, -, ha⟩ := List.mem_filterMap.1 h
  cases a with
  | signal j =>
    rw [Act.stepOf?] at ha
    split at ha
    · exact Or.inl (Option.some.inj ha).symm
    · cases ha
  | turn j =>
    rw [Act.stepOf?] at ha
    split at ha
    · exact Or.inr (Option.some.inj ha).symm
    · cases ha

/-- Whatever the schedule, once all workers of a group have been asked to stop and have finished, each
    is as if it had been stopped alone. -/
theorem actAll_eq_map {g : List Ingestion} {acts : List Act}
    (h : ∀ i ∈ actAll g acts, i.signalled = true ∧ i.phase = .finished) :
    actAll g acts = g.map stop := by
  refine List.ext_getElem? fun k => ?_
  rw [List.getElem?_map]
  cases hk : g[k]? with
  | none => rw [getElem?_actAll, hk, Option.map_none, Option.map_none]
  | some i =>
    have hat := getElem?_actAll g acts k
    rw [hk, Option.map_some] at hat
    obtain ⟨hs, hf⟩ := h _ (List.mem_of_getElem? hat)
    rw [hat, Option.map_some, run_eq_stop (fun s => mem_filterMap_stepOf?) hs hf]

/-! ### What a stop hands over -/

/-- A queue is drained unless its worker fails with something in it. -/
theorem batches_stopping (hi : i.phase = .finished → i.queue = []) :
    (batches (i.run i.stopping).1).flatten = i.queue ↔
      i.phase ≠ .serving ∨ i.intake.excessive = false ∨ i.queue = [] := by
  by_cases hkept : i.intake.excessive = false ∨ i.phase ≠ .serving
  · refine iff_of_true ?_ (hkept.elim (fun hc => Or.inr (Or.inl hc)) Or.inl)
    have hbalance := conserved_of_kept i i.stopping (hkept.imp_right Or.inl)
    have hempty : (i.run i.stopping).2.queue = [] :=
      queue_run_of_finished i hi i.stopping (phase_stop i)
    rw [hempty, accepted_stopping, List.append_nil, List.append_nil] at hbalance
    exact hbalance
  · simp only [not_or, not_not, Bool.not_eq_false] at hkept
    obtain ⟨hc, hp⟩ := hkept
    have hnone : batches (i.run i.stopping).1 = [] :=
      batches_run_of_excessive i hc (hp ▸ Phase.noConfusion) i.stopping
    rw [hnone, hc, hp]
    simp [eq_comm]

/-- What holds of a group of workers that is stopped. -/
structure StopsAlone (g : List Ingestion) : Prop where
  each : stopAll g = g.map stop
  /-- It does not matter who gets a turn when, nor how often anybody is asked. -/
  scheduled : ∀ acts, (∀ i ∈ actAll g acts, i.signalled = true ∧ i.phase = .finished) →
    actAll g acts = g.map stop
  /-- In any other order of the group, each worker becomes the same. -/
  perm : ∀ g' : List Ingestion, g'.Perm g → (g'.zip (stopAll g')).Perm (g.zip (stopAll g))
  closed : ∀ i ∈ g, i.stop.phase = .finished ∧ i.stop.queue = []
  /-- All that is in a queue is handed over, unless the worker fails. -/
  drained : ∀ i ∈ g, (batches (i.run i.stopping).1).flatten = i.queue ↔
    i.phase ≠ .serving ∨ i.intake.excessive = false ∨ i.queue = []

/-- After the first signal of a run, further ones make no difference. -/
structure SignalsOnce (i : Ingestion) : Prop where
  run : ∀ before after after' : List Step,
    after'.filter (· ≠ .signal) = after.filter (· ≠ .signal) →
    (i.run (before ++ .signal :: after')).2 = (i.run (before ++ .signal :: after)).2 ∧
      i.told (before ++ .signal :: after') = i.told (before ++ .signal :: after)
  /-- The same for calls, among which there may be stops, and for what they are answered. -/
  calls : ∀ before after after' : List Call,
    after'.filter (· ≠ .signal) = after.filter (· ≠ .signal) →
    i.callAll (before ++ .signal :: after') = i.callAll (before ++ .signal :: after)
  /-- Nor does it make a difference that a stop asks once more. -/
  stop : ∀ before : List Step, (i.run (before ++ [.signal])).2.stop = (i.run before).2.stop

theorem stopsAlone {g : List Ingestion} (hg : ∀ i ∈ g, i.phase = .finished → i.queue = []) :
    StopsAlone g where
  each := stopAll_eq_map g
  scheduled acts h := actAll_eq_map h
  perm g' hp := by
    have hpairs (row : List Ingestion) : row.zip (stopAll row) = row.map fun i => (i, i.stop) := by
      rw [stopAll_eq_map, List.map_prod_left_eq_zip]
    rw [hpairs, hpairs]
    exact hp.map _
  closed i hi := ⟨phase_stop i, queue_run_of_finished i (hg i hi) i.stopping (phase_stop i)⟩
  drained i hi := batches_stopping (hg i hi)

theorem signalsOnce (i : Ingestion) : SignalsOnce i where
  run before after after' h := by
    have hup : ((i.run before).2.step .signal).2.signalled = true := rfl
    obtain ⟨hend, htold⟩ := run_filter_signal hup after
    obtain ⟨hend', htold'⟩ := run_filter_signal hup after'
    rw [run_append, run_append, told_append, told_append, run_cons, run_cons, told, told,
      ← hend, ← hend', ← htold, ← htold', h]
    exact ⟨rfl, rfl⟩
  calls before after after' h := by
    have hup : ((i.callAll before).2.call .signal).2.signalled = true := rfl
    rw [callAll_append, callAll_append, callAll_cons, callAll_cons,
      ← callAll_filter_signal hup after, ← callAll_filter_signal hup after', h]
  stop before := by
    rw [run_append]
    exact (i.run before).2.stop_signal

/-- Stopping a group of workers is stopping each of them alone, in whatever order they are listed and
    get their turns. Each queue is closed and drained exactly unless a batch fits into no memory; then
    what is in the queue is lost with the worker. A worker that has been asked to stop does not notice
    that it is asked again. -/
theorem stopAll_alone {g : List Ingestion} (hg : ∀ i ∈ g, i.phase = .finished → i.queue = []) :
    StopsAlone g ∧ ∀ i, SignalsOnce i :=
  ⟨stopsAlone hg, signalsOnce⟩

/-- Three workers: one has been at work and is asked twice, one is closed before it is asked, and the
    batches of the last are too large. -/
theorem stopAll_alone_of_three :
    let n := Node.ofWindow 0 (.empty 2 Nat.two_pos)
    let g := [((start n ⟨4, 2⟩).run [.submit 5, .submit 6, .submit 7]).2,
      ((start n ⟨4, 1⟩).run [.submit 1, .submit 2, .abandon, .turn]).2,
      ((start n ⟨4, Intake.batchLimit + 1⟩).run [.submit 8]).2]
    let acts : List Act := [.turn 0, .signal 0, .signal 2, .turn 1, .signal 0, .turn 0, .signal 1,
      .turn 1, .turn 2, .turn 0, .turn 1, .turn 0, .turn 0]
    actAll g acts = stopAll g ∧ (g.reverse.zip (stopAll g.reverse)).Perm (g.zip (stopAll g)) ∧
      g.map (fun i => decide ((batches (i.run i.stopping).1).flatten = i.queue)) =
        [true, true, false] := by
  intro n g acts
  obtain ⟨hstops, -⟩ := stopAll_alone (g := g) (by decide +kernel)
  refine ⟨?_, hstops.perm _ g.reverse_perm, by decide +kernel⟩
  rw [hstops.each]
  exact hstops.scheduled acts (by decide +kernel)

end WindowedMean.Ingestion
