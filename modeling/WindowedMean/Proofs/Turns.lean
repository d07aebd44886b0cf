import Mathlib.Logic.Basic
import WindowedMean.Ingestion

/-! All that one step of an ingestion can do.

    The worker cuts its batches off the front of the queue in the same way while it serves and while
    it drains, so a turn either hands over the next batch or changes the phase:

        serving ──▶ draining ──▶ finished        hands over while serving or draining
           └──────────────────────▶              fails at once, and the queue is lost

    A caller is answered at once, or joins the line and is answered out of the line:

        submit   ──▶ accepted or refused
        attempt  ──▶ accepted or closed,  or joins   ──▶ retry, …, retry ──▶ accepted or closed

    `Move` lists the cases, one constructor for each, with all that is known in it. A fact about
    every step is a case split over `Move`; a fact about every run follows by induction on its
    steps. -/

namespace WindowedMean.Ingestion

/-- Gathering takes what fits off the front of the queue. -/
theorem gather_eq {size : Nat} {buffer : List Int} (h : buffer.length < size) (queue : List Int) :
    gather size buffer queue =
      (buffer ++ queue.take (size - buffer.length), queue.drop (size - buffer.length)) := by
  induction queue generalizing buffer with
  | nil => rw [gather, List.take_nil, List.drop_nil, List.append_nil]
  | cons v queue ih =>
    have hs : size - buffer.length = (size - (buffer ++ [v]).length) + 1 := by
      rw [List.length_append, List.length_singleton]
      omega
    rw [gather, hs, List.take_succ_cons, List.drop_succ_cons, List.append_cons buffer v (queue.take _)]
    split
    · rename_i hfull
      rw [Nat.sub_eq_zero_of_le hfull, List.take_zero, List.drop_zero, List.append_nil]
    · rename_i hroom
      exact ih (Nat.lt_of_not_le hroom)

/-- The next batch: what the worker would cut off the front of the queue. -/
def nextBatch (i : Ingestion) : List Int := i.queue.take i.intake.batch

/-- The queue without its next batch. -/
def cut (i : Ingestion) : Ingestion :=
  { i with
    queue := i.queue.drop i.intake.batch
    length_le := by
      rw [List.length_drop]
      exact Nat.le_trans (Nat.sub_le ..) i.length_le }

/-- The next batch is handed to the node. -/
def handOver (i : Ingestion) : Ingestion := (i.cut.apply i.nextBatch).2

theorem length_nil_le (i : Ingestion) : ([] : List Int).length ≤ i.intake.places := Nat.zero_le _

/-- The queue is lost with its worker. -/
def fail (i : Ingestion) : Ingestion :=
  { i with queue := [], phase := .finished, length_le := i.length_nil_le }

/-- The queue is closed. -/
def close (i : Ingestion) : Ingestion := { i with phase := .draining }

/-- The worker ends. -/
def finish (i : Ingestion) : Ingestion := { i with phase := .finished }

theorem apply_fields (i : Ingestion) (b : List Int) :
    (i.apply b).1 = (i.node.process b).1 ∧ (i.apply b).2.node = (i.node.process b).2 ∧
      (i.apply b).2.queue = i.queue ∧ (i.apply b).2.phase = i.phase ∧
      (i.apply b).2.intake = i.intake ∧ (i.apply b).2.signalled = i.signalled ∧
      (i.apply b).2.waiting = i.waiting := by
  rw [apply]
  rcases hp : i.node.process b with ⟨r, n⟩
  cases r <;> exact ⟨rfl, rfl, rfl, rfl, rfl, rfl, rfl⟩

@[simp] theorem node_handOver (i : Ingestion) :
    i.handOver.node = (i.node.process i.nextBatch).2 := (i.cut.apply_fields _).2.1

@[simp] theorem queue_handOver (i : Ingestion) : i.handOver.queue = i.queue.drop i.intake.batch :=
  (i.cut.apply_fields _).2.2.1

@[simp] theorem phase_handOver (i : Ingestion) : i.handOver.phase = i.phase :=
  (i.cut.apply_fields _).2.2.2.1

@[simp] theorem intake_handOver (i : Ingestion) : i.handOver.intake = i.intake :=
  (i.cut.apply_fields _).2.2.2.2.1

@[simp] theorem signalled_handOver (i : Ingestion) : i.handOver.signalled = i.signalled :=
  (i.cut.apply_fields _).2.2.2.2.2.1

@[simp] theorem waiting_handOver (i : Ingestion) : i.handOver.waiting = i.waiting :=
  (i.cut.apply_fields _).2.2.2.2.2.2

theorem nextBatch_append (i : Ingestion) : i.nextBatch ++ i.handOver.queue = i.queue := by
  rw [queue_handOver]
  exact List.take_append_drop ..

theorem length_nextBatch_le (i : Ingestion) : i.nextBatch.length ≤ i.intake.batch := by
  rw [nextBatch, List.length_take]
  exact Nat.min_le_left ..

theorem length_nextBatch_pos {i : Ingestion} (hq : i.queue ≠ []) : 0 < i.nextBatch.length := by
  have hb := i.intake.batch_pos
  have hl := List.length_pos_iff.2 hq
  rw [nextBatch, List.length_take]
  omega

/-- The worker is in a phase in which it hands over what it finds in the queue. -/
def Handing (i : Ingestion) : Prop :=
  i.phase = .serving ∧ i.intake.excessive = false ∧ i.signalled = false ∨ i.phase = .draining

/-- The worker serves, was not asked to stop, and has nothing to hand over. -/
def Idle (i : Ingestion) : Prop :=
  i.phase = .serving ∧ i.intake.excessive = false ∧ i.signalled = false ∧ i.queue = []

/-- Everything that a step can do: what it brings about and what it leaves behind. -/
inductive Move (i : Ingestion) : Step → Event → Ingestion → Prop where
  | accept {s : Step} {v : Int} (hs : s = .submit v ∨ s = .attempt v) (hp : i.phase = .serving)
      (h : i.occupied < i.intake.places) : Move i s (.accepted v) (i.accept v (room_of_occupied h))
  | reject {v : Int} (hp : i.phase = .serving) (hfull : i.occupied = i.intake.places) :
      Move i (.submit v) (.refused (.rejected v)) i.countRefusal
  | join {v : Int} (hp : i.phase = .serving) (hfull : i.occupied = i.intake.places) :
      Move i (.attempt v) (.waiting v) (i.join v)
  | shut {s : Step} {v : Int} (hs : s = .submit v ∨ s = .attempt v) (hp : i.phase ≠ .serving) :
      Move i s (.refused (.closed v)) i.countRefusal
  | grant {k : Nat} {v : Int} (hw : i.waiting[k]? = some v) (hp : i.phase = .serving)
      (hk : k < i.granted) :
      Move i (.retry k) (.accepted v) ((i.leave k).accept v (room_of_granted (i := i) hk))
  | wait {k : Nat} {v : Int} (hw : i.waiting[k]? = some v) (hp : i.phase = .serving)
      (hk : i.granted ≤ k) : Move i (.retry k) (.waiting v) i
  | dismiss {k : Nat} {v : Int} (hw : i.waiting[k]? = some v) (hp : i.phase ≠ .serving) :
      Move i (.retry k) (.refused (.closed v)) (i.leave k).countRefusal
  | absent {k : Nat} (hw : i.waiting[k]? = none) : Move i (.retry k) .nothing i
  | leave {k : Nat} : Move i (.leave k) .nothing (i.leave k)
  | hand (hp : i.Handing) (hq : i.queue ≠ []) :
      Move i .turn (.handed ⟨i.nextBatch, (i.node.process i.nextBatch).1⟩) i.handOver
  | fail (hp : i.phase = .serving) (he : i.intake.excessive = true) : Move i .turn .nothing i.fail
  | close (hp : i.phase = .serving) (he : i.intake.excessive = false)
      (hc : i.signalled = true ∨ i.queue = []) : Move i .turn .nothing i.close
  | finish (hp : i.phase = .draining) (hq : i.queue = []) : Move i .turn .nothing i.finish
  | idle (h : i.phase = .finished ∨ i.Idle) : Move i .turn .nothing i
  | signal : Move i .signal .nothing i.signal
  | abandon : Move i .abandon .nothing i.abandon

/-- The moves of a turn. -/
@[elab_as_elim] theorem Move.turn_cases {i : Ingestion}
    {motive : (e : Event) → (j : Ingestion) → Move i .turn e j → Prop}
    (hand : ∀ hp hq, motive _ _ (.hand hp hq)) (fail : ∀ hp he, motive _ _ (.fail hp he))
    (close : ∀ hp he hc, motive _ _ (.close hp he hc)) (finish : ∀ hp hq, motive _ _ (.finish hp hq))
    (idle : ∀ h, motive _ _ (.idle h)) {e : Event} {j : Ingestion} (m : Move i .turn e j) :
    motive e j m := by
  cases m with
  | accept hs => rcases hs with h | h <;> cases h
  | shut hs => rcases hs with h | h <;> cases h
  | hand hp hq => exact hand hp hq
  | fail hp he => exact fail hp he
  | close hp he hc => exact close hp he hc
  | finish hp hq => exact finish hp hq
  | idle h => exact idle h

/-! ### There are no other cases -/

theorem turn_of_finished {i : Ingestion} (hp : i.phase = .finished) : i.turn = (none, i) := by
  rw [turn]
  split
  · rfl
  · rename_i h
    rw [hp] at h
    cases h
  · rename_i h
    rw [hp] at h
    cases h

/-- A cut that was worked out in another way is the same cut. -/
theorem handed_eq {i j : Ingestion} {b : List Int} (hb : b = i.nextBatch) (hj : j = i.cut) :
    (some (Handover.mk b (j.apply b).1), (j.apply b).2) =
      (some ⟨i.nextBatch, (i.node.process i.nextBatch).1⟩, i.handOver) := by
  subst hb hj
  rw [(i.cut.apply_fields i.nextBatch).1]
  rfl

theorem turn_of_handing {i : Ingestion} (hp : i.Handing) (hq : i.queue ≠ []) :
    i.turn = (some ⟨i.nextBatch, (i.node.process i.nextBatch).1⟩, i.handOver) := by
  obtain ⟨k, hk⟩ : ∃ k, i.intake.batch = k + 1 :=
    ⟨_, (Nat.sub_add_cancel i.intake.batch_pos).symm⟩
  rcases hp with ⟨hp, he, hs⟩ | hp
  · simp only [turn, hp, he, hs, if_neg Bool.false_ne_true]
    split
    · rename_i h
      exact absurd h hq
    · rename_i first later h
      refine handed_eq ?_ (Ingestion.ext rfl rfl ?_ rfl hp.symm hs.symm rfl rfl)
      · rw [nextBatch, h, hk, List.take_succ_cons, Nat.add_sub_cancel]
      · change later.drop (i.intake.batch - 1) = i.queue.drop i.intake.batch
        rw [h, hk, List.drop_succ_cons, Nat.add_sub_cancel]
  · have hg : gather i.intake.batch [] i.queue = (i.nextBatch, i.cut.queue) :=
      gather_eq i.intake.batch_pos i.queue
    simp only [turn, hp]
    split
    · rename_i h
      rw [hg] at h
      have hl := length_nextBatch_pos hq
      rw [(Prod.mk.inj h).1] at hl
      exact absurd hl (Nat.lt_irrefl 0)
    · rename_i first later rest h
      rw [hg] at h
      obtain ⟨hb, hr⟩ := Prod.mk.inj h
      exact handed_eq hb.symm (Ingestion.ext rfl rfl hr.symm rfl hp.symm rfl rfl rfl)

theorem turn_of_serving_empty {i : Ingestion} (hp : i.phase = .serving)
    (he : i.intake.excessive = false) (hs : i.signalled = false) (hq : i.queue = []) :
    i.turn = (none, if i.abandoned ∧ i.waiting = [] then i.close else i) := by
  rcases i with ⟨c, n, q, w, p, sg, ab, cs, hle⟩
  obtain ⟨rfl, rfl, rfl⟩ : p = .serving ∧ sg = false ∧ q = [] := ⟨hp, hs, hq⟩
  simp only [turn, he, if_neg Bool.false_ne_true]
  rfl

theorem turn_of_excessive {i : Ingestion} (hp : i.phase = .serving)
    (he : i.intake.excessive = true) : i.turn = (none, i.fail) := by
  rcases i with ⟨c, n, q, w, p, sg, ab, cs, hle⟩
  obtain rfl : p = .serving := hp
  simp only [turn, he, if_pos]
  rfl

theorem turn_of_signalled {i : Ingestion} (hp : i.phase = .serving)
    (he : i.intake.excessive = false) (hs : i.signalled = true) : i.turn = (none, i.close) := by
  rcases i with ⟨c, n, q, w, p, sg, ab, cs, hle⟩
  obtain ⟨rfl, rfl⟩ : p = .serving ∧ sg = true := ⟨hp, hs⟩
  simp only [turn, he, if_neg Bool.false_ne_true, if_pos]
  rfl

theorem turn_of_draining_empty {i : Ingestion} (hp : i.phase = .draining) (hq : i.queue = []) :
    i.turn = (none, i.finish) := by
  simp only [turn, hp]
  split
  · rfl
  · rename_i h
    rw [hq] at h
    cases h

/-- Every turn is one of the moves of a turn. -/
theorem turn_move (i : Ingestion) : Move i .turn (i.step .turn).1 (i.step .turn).2 := by
  cases hp : i.phase with
  | finished =>
    rw [step, turn_of_finished hp]
    exact .idle (Or.inl hp)
  | draining =>
    by_cases hq : i.queue = []
    · rw [step, turn_of_draining_empty hp hq]
      exact .finish hp hq
    · rw [step, turn_of_handing (Or.inr hp) hq]
      exact .hand (Or.inr hp) hq
  | serving =>
    cases he : i.intake.excessive with
    | true =>
      rw [step, turn_of_excessive hp he]
      exact .fail hp he
    | false =>
      cases hs : i.signalled with
      | true =>
        rw [step, turn_of_signalled hp he hs]
        exact .close hp he (Or.inl hs)
      | false =>
        by_cases hq : i.queue = []
        · rw [step, turn_of_serving_empty hp he hs hq]
          by_cases ha : i.abandoned ∧ i.waiting = []
          · rw [if_pos ha]
            exact .close hp he (Or.inr hq)
          · rw [if_neg ha]
            exact .idle (Or.inr ⟨hp, he, hs, hq⟩)
        · rw [step, turn_of_handing (Or.inl ⟨hp, he, hs⟩) hq]
          exact .hand (Or.inl ⟨hp, he, hs⟩) hq

variable {i : Ingestion}

theorem submit_of_place (hp : i.phase = .serving) (h : i.occupied < i.intake.places) (v : Int) :
    i.submit v = (.ok (), i.accept v (room_of_occupied h)) := by
  rw [submit, if_neg (not_not_intro hp), dif_pos h]

theorem submit_of_occupied (hp : i.phase = .serving) (h : ¬ i.occupied < i.intake.places) (v : Int) :
    i.submit v = (.error (.rejected v), i.countRefusal) := by
  rw [submit, if_neg (not_not_intro hp), dif_neg h]

theorem submit_of_closed (hp : i.phase ≠ .serving) (v : Int) :
    i.submit v = (.error (.closed v), i.countRefusal) := by
  rw [submit, if_pos hp]

theorem attempt_of_place (hp : i.phase = .serving) (h : i.occupied < i.intake.places) (v : Int) :
    i.attempt v = (some (.ok ()), i.accept v (room_of_occupied h)) := by
  rw [attempt, if_neg (not_not_intro hp), dif_pos h]

theorem attempt_of_occupied (hp : i.phase = .serving) (h : ¬ i.occupied < i.intake.places)
    (v : Int) : i.attempt v = (none, i.join v) := by
  rw [attempt, if_neg (not_not_intro hp), dif_neg h]

theorem attempt_of_closed (hp : i.phase ≠ .serving) (v : Int) :
    i.attempt v = (some (.error (.closed v)), i.countRefusal) := by
  rw [attempt, if_pos hp]

section
variable {k : Nat} {v : Int}

theorem retry_of_granted (hw : i.waiting[k]? = some v) (hp : i.phase = .serving)
    (hk : k < i.granted) :
    i.retry k = (some (.ok ()), (i.leave k).accept v (room_of_granted (i := i) hk)) := by
  simp only [retry, hw, if_neg (not_not_intro hp), dif_pos hk]

theorem retry_of_closed (hw : i.waiting[k]? = some v) (hp : i.phase ≠ .serving) :
    i.retry k = (some (.error (.closed v)), (i.leave k).countRefusal) := by
  simp only [retry, hw, if_pos hp]

theorem retry_of_not_granted (hw : i.waiting[k]? = some v) (hp : i.phase = .serving)
    (hk : ¬ k < i.granted) : i.retry k = (none, i) := by
  simp only [retry, hw, if_neg (not_not_intro hp), dif_neg hk]

end

theorem occupied_eq (h : ¬ i.occupied < i.intake.places) : i.occupied = i.intake.places :=
  Nat.le_antisymm i.occupied_le (Nat.le_of_not_lt h)

/-- Every look of a caller in the line is one of the moves of a caller in the line. -/
theorem retry_move (i : Ingestion) (k : Nat) :
    Move i (.retry k) (i.step (.retry k)).1 (i.step (.retry k)).2 := by
  cases hw : i.waiting[k]? with
  | none =>
    simp only [step, hw]
    exact .absent hw
  | some v =>
    by_cases hp : i.phase = .serving
    · by_cases hk : k < i.granted
      · simp only [step, hw, retry_of_granted hw hp hk]
        exact .grant hw hp hk
      · simp only [step, hw, retry_of_not_granted hw hp hk]
        exact .wait hw hp (Nat.le_of_not_lt hk)
    · simp only [step, hw, retry_of_closed hw hp]
      exact .dismiss hw hp

/-- Every step is a move. -/
theorem step_move (i : Ingestion) (s : Step) : Move i s (i.step s).1 (i.step s).2 := by
  cases s with
  | turn => exact turn_move i
  | signal => exact .signal
  | abandon => exact .abandon
  | retry k => exact retry_move i k
  | leave k => exact .leave
  | submit v =>
    by_cases hp : i.phase = .serving
    · by_cases h : i.occupied < i.intake.places
      · rw [step, submit_of_place hp h]
        exact .accept (Or.inl rfl) hp h
      · rw [step, submit_of_occupied hp h]
        exact .reject hp (occupied_eq h)
    · rw [step, submit_of_closed hp]
      exact .shut (Or.inl rfl) hp
  | attempt v =>
    by_cases hp : i.phase = .serving
    · by_cases h : i.occupied < i.intake.places
      · rw [step, attempt_of_place hp h]
        exact .accept (Or.inr rfl) hp h
      · rw [step, attempt_of_occupied hp h]
        exact .join hp (occupied_eq h)
    · rw [step, attempt_of_closed hp]
      exact .shut (Or.inr rfl) hp

end WindowedMean.Ingestion
