import WindowedMean.Ingestion.Group
import WindowedMean.Proofs.Stopping

/-! Stopping several ingestions together is stopping each.

    While one worker is waited for, all the others have their turns as well, so after a number of
    rounds every worker has had that many turns since it was asked to stop:

        signal, turn, turn, …, turn        `rounds n`, the same `n` for all

    A worker that has finished stays as it is, so it does not matter how many turns it had beyond its
    last. It does not matter either that each is asked a second time. -/

namespace WindowedMean.Ingestion

variable {i : Ingestion}

theorem snd_step_turn (i : Ingestion) : (i.step .turn).2 = i.turn.2 := by
  rw [step]
  rcases i.turn with ⟨_ | h, j⟩ <;> rfl

theorem turns_succ (n : Nat) : turns (n + 1) = turns n ++ [.turn] := List.replicate_succ'

theorem run_turns_succ (i : Ingestion) (n : Nat) :
    (i.run (turns (n + 1))).2 = (i.run (turns n)).2.turn.2 := by
  rw [turns_succ, run_append]
  exact snd_step_turn _

theorem run_turns_add (i : Ingestion) (n m : Nat) :
    (i.run (turns (n + m))).2 = ((i.run (turns n)).2.run (turns m)).2 := by
  have hturns : turns (n + m) = turns n ++ turns m := List.replicate_append_replicate.symm
  rw [hturns, run_append]

theorem run_turns_of_finished (hp : i.phase = .finished) (n : Nat) : (i.run (turns n)).2 = i := by
  induction n with
  | zero => rfl
  | succ n ih => rw [run_turns_succ, ih, turn_of_finished hp]

theorem signalled_run_turns (hs : i.signalled = true) (n : Nat) :
    (i.run (turns n)).2.signalled = true := by
  induction n with
  | zero => exact hs
  | succ n ih =>
    rw [run_turns_succ, ← snd_step_turn]
    exact ((step_move _ .turn).ahead_le ih).1

theorem signal_of_signalled (hs : i.signalled = true) : i.signal = i :=
  Ingestion.ext rfl rfl rfl rfl rfl hs.symm rfl rfl

theorem finished_mono {n m : Nat} (hnm : n ≤ m) (hf : (i.run (turns n)).2.phase = .finished) :
    (i.run (turns m)).2.phase = .finished := by
  obtain ⟨d, rfl⟩ := Nat.exists_eq_add_of_le hnm
  rw [run_turns_add, run_turns_of_finished hf, hf]

/-- A worker that was asked to stop and has finished has stopped, however many turns it had. -/
theorem stop_eq_of_finished {n : Nat} (hf : (i.signal.run (turns n)).2.phase = .finished) :
    (i.signal.run (turns n)).2 = i.stop := by
  have hstop : (i.signal.run (turns i.signal.enough)).2.phase = .finished := phase_stop i
  -- As many turns more lead to both ends, so the ends are one.
  have hall : (i.signal.run (turns (n + i.signal.enough))).2 = (i.signal.run (turns n)).2 := by
    rw [run_turns_add, run_turns_of_finished hf]
  rw [Nat.add_comm, run_turns_add, run_turns_of_finished hstop] at hall
  exact hall.symm

/-! ### Rounds of turns -/

/-- All workers were asked to stop and have had a number of turns since. -/
def rounds (n : Nat) (g : List Ingestion) : List Ingestion :=
  g.map fun i => (i.signal.run (turns n)).2

theorem turnAll_rounds (n : Nat) (g : List Ingestion) : turnAll (rounds n g) = rounds (n + 1) g := by
  rw [turnAll, rounds, List.map_map]
  exact List.map_congr_left fun i _ => (run_turns_succ i.signal n).symm

variable {g : List Ingestion} {k : Nat}

theorem getElem?_rounds (hk : g[k]? = some i) (n : Nat) :
    (rounds n g)[k]? = some (i.signal.run (turns n)).2 := by
  rw [rounds, List.getElem?_map, hk]
  rfl

/-- Whoever is waited for finishes, and all have had the same number of turns by then. -/
theorem awaitAt_rounds (hk : g[k]? = some i) {left n : Nat}
    (hle : (i.signal.run (turns n)).2.ahead ≤ left) :
    ∃ m, n ≤ m ∧ awaitAt k left (rounds n g) = rounds m g ∧
      (i.signal.run (turns m)).2.phase = .finished := by
  induction left generalizing n with
  | zero => exact ⟨n, Nat.le_refl n, rfl, finished_of_ahead (Nat.le_zero.1 hle)⟩
  | succ left ih =>
    by_cases hf : (i.signal.run (turns n)).2.phase = .finished
    · refine ⟨n, Nat.le_refl n, ?_, hf⟩
      simp only [awaitAt, getElem?_rounds hk, if_pos hf]
    · have hsinks : (i.signal.run (turns (n + 1))).2.ahead ≤ left := by
        have hs : (i.signal.run (turns n)).2.signalled = true := signalled_run_turns rfl n
        have hturn := ((step_move _ .turn).ahead_le hs).2
        rw [run_turns_succ, ← snd_step_turn]
        omega
      obtain ⟨m, hm, hawait, hend⟩ := ih hsinks
      refine ⟨m, Nat.le_of_succ_le hm, ?_, hend⟩
      simp only [awaitAt, getElem?_rounds hk, if_neg hf, turnAll_rounds]
      exact hawait

theorem stopAt_rounds (hk : g[k]? = some i) (n : Nat) :
    ∃ m, n ≤ m ∧ stopAt (rounds n g) k = rounds m g ∧
      (i.signal.run (turns m)).2.phase = .finished := by
  have hat := getElem?_rounds hk n
  have hagain : (rounds n g).set k (i.signal.run (turns n)).2.signal = rounds n g := by
    obtain ⟨hlt, hget⟩ := List.getElem?_eq_some_iff.1 hat
    rw [signal_of_signalled (signalled_run_turns rfl n), ← hget, List.set_getElem_self]
  simp only [stopAt, hat, hagain]
  exact awaitAt_rounds hk (ahead_le_enough _)

/-- Those who have been waited for have finished. -/
theorem foldl_stopAt (g : List Ingestion) (k : Nat) :
    ∃ n, (List.range k).foldl stopAt (g.map signal) = rounds n g ∧
      ∀ j < k, ∀ i, g[j]? = some i → (i.signal.run (turns n)).2.phase = .finished := by
  induction k with
  | zero => exact ⟨0, rfl, fun j hj => absurd hj (Nat.not_lt_zero j)⟩
  | succ k ih =>
    obtain ⟨n, hn, hdone⟩ := ih
    rw [List.range_succ, List.foldl_append, hn]
    cases hk : g[k]? with
    | none =>
      refine ⟨n, ?_, fun j hj i hi => ?_⟩
      · have hnone : (rounds n g)[k]? = none := by rw [rounds, List.getElem?_map, hk, Option.map_none]
        simp only [List.foldl_cons, List.foldl_nil, stopAt, hnone]
      · rcases Nat.lt_succ_iff_lt_or_eq.1 hj with hj | rfl
        · exact hdone j hj i hi
        · rw [hk] at hi
          cases hi
    | some i =>
      obtain ⟨m, hm, hstop, hf⟩ := stopAt_rounds hk n
      refine ⟨m, hstop, fun j hj i' hi' => ?_⟩
      rcases Nat.lt_succ_iff_lt_or_eq.1 hj with hj | rfl
      · exact finished_mono hm (hdone j hj i' hi')
      · rw [hk] at hi'
        cases hi'
        exact hf

theorem stopAll_eq_map (g : List Ingestion) : stopAll g = g.map stop := by
  obtain ⟨n, hn, hdone⟩ := foldl_stopAt g g.length
  rw [stopAll, hn, rounds]
  refine List.map_congr_left fun i hi => ?_
  obtain ⟨k, hk⟩ := List.mem_iff_getElem?.1 hi
  exact stop_eq_of_finished (hdone k (List.getElem?_eq_some_iff.1 hk).1 i hk)

end WindowedMean.Ingestion
