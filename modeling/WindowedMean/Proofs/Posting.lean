import WindowedMean.Proofs.Emptying
import WindowedMean.Proofs.Routing

/-! What becomes of the values that are posted to a node.

    Each value is queued or comes back, also while the worker goes on beside the request. If it does
    not, the queue takes in as many of the values as it has places to give, and the others come back:

        values    =  take free  ++  drop free
                        ↓              ↓
                      queued        rejected

    Whoever posts what came back, each time after the open queue has been emptied, gets a whole queue
    of values in each time. So all of them are handed over in the end, each once and in order. -/

namespace WindowedMean

namespace Ingestion

variable {i j : Ingestion} {vs : List Int}

/-! ### Other things going on -/

/-- Submits values while other steps are taken, some before each value. -/
def submitAmong (i : Ingestion) :
    List (List Step × Int) → List (Except IngestError Unit) × Ingestion
  | [] => ([], i)
  | (gap, v) :: later =>
    let (r, i') := (i.run gap).2.submit v
    let (rs, i'') := i'.submitAmong later
    (r :: rs, i'')

/-- Each value with the ingestion that it is submitted to. -/
def moments (i : Ingestion) : List (List Step × Int) → List (Ingestion × Int)
  | [] => []
  | (gap, v) :: later => ((i.run gap).2, v) :: ((i.run gap).2.submit v).2.moments later

/-- The queue has the value at its end once it was submitted. -/
def Queues (i : Ingestion) (v : Int) : Prop := (i.submit v).2.queue = i.queue ++ [v]

instance (i : Ingestion) (v : Int) : Decidable (i.Queues v) :=
  inferInstanceAs (Decidable ((i.submit v).2.queue = i.queue ++ [v]))

/-- The number of values that can be queued now: places that are neither taken nor given to somebody in
    the line; none if the queue is closed. -/
def free (i : Ingestion) : Nat :=
  if i.phase = .serving then i.intake.places - i.occupied else 0

/-! ### One value -/

theorem free_of_serving (hp : i.phase = .serving) : i.free = i.intake.places - i.occupied :=
  if_pos hp

/-- Where nobody waits, each place in an open queue that is not taken can be given. -/
theorem free_of_waiting (hp : i.phase = .serving) (hw : i.waiting = []) :
    i.free = i.intake.places - i.queue.length := by rw [free_of_serving hp, occupied_of_waiting hw]

/-- There is a place, or the value comes back. -/
theorem submit_cases (i : Ingestion) (v : Int) :
    (∃ h, 0 < i.free ∧ i.submit v = (.ok (), i.accept v (room_of_occupied h))) ∨
      ∃ e : IngestError, e.value = v ∧ i.free = 0 ∧ i.submit v = (.error e, i.countRefusal) := by
  by_cases hp : i.phase = .serving
  · by_cases h : i.occupied < i.intake.places
    · refine Or.inl ⟨h, ?_, submit_of_place hp h v⟩
      rw [free_of_serving hp]
      omega
    · refine Or.inr ⟨.rejected v, rfl, ?_, submit_of_occupied hp h v⟩
      rw [free_of_serving hp]
      omega
  · exact Or.inr ⟨.closed v, rfl, if_neg hp, submit_of_closed hp v⟩

/-- A newcomer takes one of the places that were not given away. -/
theorem occupied_accept (v : Int) (h : i.occupied < i.intake.places) :
    (i.accept v (room_of_occupied h)).occupied = i.occupied + 1 := by
  have hall := granted_of_place h
  change (i.queue ++ [v]).length + min i.waiting.length (i.intake.places - (i.queue ++ [v]).length) =
    i.occupied + 1
  rw [occupied] at h ⊢
  rw [List.length_append, List.length_singleton]
  omega

theorem free_accept (v : Int) (h : i.occupied < i.intake.places) :
    (i.accept v (room_of_occupied h)).free = i.free - 1 := by
  rw [free, free, occupied_accept v h]
  change (if i.phase = .serving then i.intake.places - (i.occupied + 1) else 0) = _
  split <;> omega

theorem free_countRefusal (i : Ingestion) : i.countRefusal.free = i.free := rfl

theorem not_queues_of_refused {v : Int} {e : IngestError}
    (h : i.submit v = (.error e, i.countRefusal)) : ¬ i.Queues v := by
  intro hq
  have hlength := congrArg List.length hq
  rw [h, List.length_append] at hlength
  exact Nat.succ_ne_self _ hlength.symm

theorem queues_of_accepted {v : Int} {h : i.queue.length < i.intake.places}
    (hs : i.submit v = (.ok (), i.accept v h)) : i.Queues v := by
  rw [Queues, hs]
  rfl

/-! ### Values while other things go on -/

/-- In the step somebody submits an event, or looks again whether it can be queued. -/
def Step.submits : Step → Bool
  | .submit _ | .attempt _ | .retry _ => true
  | _ => false

/-- What becomes of values that are submitted while other steps are taken. -/
structure Takes (i : Ingestion) (gaps : List (List Step × Int)) (accepted : Nat)
    (rejected : List Int) (j : Ingestion) : Prop where
  length_eq : accepted + rejected.length = gaps.length
  values_eq : (i.moments gaps).map (·.2) = gaps.map (·.2)
  accepted_eq : accepted = (i.moments gaps).countP fun m => m.1.Queues m.2
  rejected_eq : rejected = ((i.moments gaps).filter fun m => ¬ m.1.Queues m.2).map (·.2)
  /-- A value that is not queued leaves the queue as it is. -/
  queue_eq : ∀ m ∈ i.moments gaps, ¬ m.1.Queues m.2 → (m.1.submit m.2).2.queue = m.1.queue
  /-- If nobody else submits anything, the counters have grown by what was accepted and rejected. -/
  counters_eq : (∀ g ∈ gaps, ∀ s ∈ g.1, s.submits = false) →
    j.counters.submitted.count = i.counters.submitted.count + accepted ∧
    j.counters.rejected.count = i.counters.rejected.count + rejected.length

theorem counters_handOver (i : Ingestion) :
    i.handOver.counters.submitted = i.counters.submitted ∧
      i.handOver.counters.rejected = i.counters.rejected := by
  rw [handOver, apply]
  rcases i.cut.node.process i.nextBatch with ⟨_ | _, n⟩ <;> exact ⟨rfl, rfl⟩

/-- Where nobody submits anything, nobody is counted. -/
theorem Move.counters_of_submits {s : Step} {e : Event} (m : Move i s e j)
    (ho : s.submits = false) :
    j.counters.submitted = i.counters.submitted ∧ j.counters.rejected = i.counters.rejected := by
  cases m with
  | accept hs hp h => rcases hs with rfl | rfl <;> cases ho
  | reject hp h => cases ho
  | shut hs hp => rcases hs with rfl | rfl <;> cases ho
  | grant hw hp hk => cases ho
  | dismiss hw hp => cases ho
  | hand hp hq => exact i.counters_handOver
  | _ => exact ⟨rfl, rfl⟩

theorem counters_run_of_submits (i : Ingestion) {steps : List Step}
    (ho : ∀ s ∈ steps, s.submits = false) :
    (i.run steps).2.counters.submitted = i.counters.submitted ∧
      (i.run steps).2.counters.rejected = i.counters.rejected := by
  induction steps generalizing i with
  | nil => exact ⟨rfl, rfl⟩
  | cons s steps ih =>
    obtain ⟨hnow, hlater⟩ := List.forall_mem_cons.1 ho
    obtain ⟨hs, hr⟩ := (step_move i s).counters_of_submits hnow
    obtain ⟨hs', hr'⟩ := ih (i.step s).2 hlater
    exact ⟨hs'.trans hs, hr'.trans hr⟩

theorem takes_nil (i : Ingestion) : i.Takes [] 0 [] i where
  length_eq := rfl
  values_eq := rfl
  accepted_eq := rfl
  rejected_eq := rfl
  queue_eq _ hm := absurd hm List.not_mem_nil
  counters_eq _ := ⟨rfl, rfl⟩

section
variable {gap : List Step} {v : Int} {later : List (List Step × Int)} {accepted : Nat}
  {rejected : List Int}

/-- A value that is queued comes before the others. -/
theorem Takes.queue {h : (i.run gap).2.queue.length < (i.run gap).2.intake.places}
    (hs : (i.run gap).2.submit v = (.ok (), (i.run gap).2.accept v h))
    (ht : ((i.run gap).2.accept v h).Takes later accepted rejected j) :
    i.Takes ((gap, v) :: later) (accepted + 1) rejected j := by
  have hqueues : (i.run gap).2.Queues v := queues_of_accepted hs
  have hmoments : i.moments ((gap, v) :: later) =
      ((i.run gap).2, v) :: ((i.run gap).2.accept v h).moments later := by rw [moments, hs]
  refine ⟨?_, ?_, ?_, ?_, ?_, fun ho => ?_⟩
  · rw [List.length_cons, ← ht.length_eq]
    omega
  · rw [hmoments, List.map_cons, List.map_cons, ht.values_eq]
  · rw [hmoments, List.countP_cons_of_pos (by simpa using hqueues), ← ht.accepted_eq]
  · rw [hmoments, List.filter_cons_of_neg (by simpa using hqueues), ← ht.rejected_eq]
  · intro m hm
    rw [hmoments] at hm
    rcases List.mem_cons.1 hm with rfl | hm
    · exact fun hnot => absurd hqueues hnot
    · exact ht.queue_eq m hm
  · obtain ⟨hgap, hgap'⟩ := i.counters_run_of_submits (ho _ (List.mem_cons_self ..))
    obtain ⟨hsubmitted, hrejected⟩ := ht.counters_eq fun g hg => ho g (List.mem_cons_of_mem _ hg)
    rw [hsubmitted, hrejected, ← hgap, ← hgap']
    exact ⟨Nat.add_right_comm _ 1 accepted, rfl⟩

/-- A value that comes back comes back before the others. -/
theorem Takes.refuse {e : IngestError}
    (hs : (i.run gap).2.submit v = (.error e, (i.run gap).2.countRefusal))
    (ht : (i.run gap).2.countRefusal.Takes later accepted rejected j) :
    i.Takes ((gap, v) :: later) accepted (v :: rejected) j := by
  have hnot : ¬ (i.run gap).2.Queues v := not_queues_of_refused hs
  have hmoments : i.moments ((gap, v) :: later) =
      ((i.run gap).2, v) :: (i.run gap).2.countRefusal.moments later := by rw [moments, hs]
  refine ⟨?_, ?_, ?_, ?_, ?_, fun ho => ?_⟩
  · rw [List.length_cons, List.length_cons, ← ht.length_eq, Nat.add_assoc]
  · rw [hmoments, List.map_cons, List.map_cons, ht.values_eq]
  · rw [hmoments, List.countP_cons_of_neg (by simpa using hnot), ← ht.accepted_eq]
  · rw [hmoments, List.filter_cons_of_pos (by simpa using hnot), List.map_cons, ← ht.rejected_eq]
  · intro m hm
    rw [hmoments] at hm
    rcases List.mem_cons.1 hm with rfl | hm
    · intro _
      rw [hs]
      rfl
    · exact ht.queue_eq m hm
  · obtain ⟨hgap, hgap'⟩ := i.counters_run_of_submits (ho _ (List.mem_cons_self ..))
    obtain ⟨hsubmitted, hrejected⟩ := ht.counters_eq fun g hg => ho g (List.mem_cons_of_mem _ hg)
    rw [hsubmitted, hrejected, ← hgap, ← hgap', List.length_cons]
    exact ⟨rfl, Nat.add_right_comm _ 1 rejected.length⟩

end

theorem submitAmong_cons (i : Ingestion) (gap : List Step) (v : Int)
    (later : List (List Step × Int)) :
    i.submitAmong ((gap, v) :: later) =
      (((i.run gap).2.submit v).1 :: (((i.run gap).2.submit v).2.submitAmong later).1,
        (((i.run gap).2.submit v).2.submitAmong later).2) := rfl

theorem submitAll_cons (i : Ingestion) (v : Int) (vs : List Int) :
    i.submitAll (v :: vs) =
      ((i.submit v).1 :: ((i.submit v).2.submitAll vs).1, ((i.submit v).2.submitAll vs).2) := rfl

open Service (refused)

theorem takes_submitAmong (i : Ingestion) (gaps : List (List Step × Int)) :
    (i.submitAmong gaps).1.length = gaps.length ∧
      ∃ accepted, i.Takes gaps accepted (refused (i.submitAmong gaps).1) (i.submitAmong gaps).2 := by
  induction gaps generalizing i with
  | nil => exact ⟨rfl, 0, takes_nil i⟩
  | cons g later ih =>
    obtain ⟨gap, v⟩ := g
    obtain ⟨hlength, accepted, ht⟩ := ih ((i.run gap).2.submit v).2
    refine ⟨congrArg Nat.succ hlength, ?_⟩
    rw [submitAmong_cons]
    rcases submit_cases (i.run gap).2 v with ⟨h, -, hs⟩ | ⟨e, rfl, -, hs⟩
    · rw [hs] at ht ⊢
      exact ⟨accepted + 1, ht.queue hs⟩
    · rw [hs] at ht ⊢
      exact ⟨accepted, ht.refuse hs⟩

/-- The queue has one place. The second value finds it full, and the third one finds it empty. -/
example : refused ((start (.ofWindow 0 (.empty 2 Nat.two_pos)) ⟨1, 1⟩).submitAmong
    [([], 1), ([], 2), ([.turn], 3)]).1 = [2] := by decide +kernel

theorem submitAmong_map (i : Ingestion) (vs : List Int) :
    i.submitAmong (vs.map ([], ·)) = i.submitAll vs := by
  induction vs generalizing i with
  | nil => rfl
  | cons v vs ih =>
    have hnothing : (i.run []).2 = i := rfl
    rw [List.map_cons, submitAmong_cons, submitAll_cons, hnothing, ih]

/-! ### Values while nothing else goes on -/

/-- The queue takes in as many of the values as there is room for, and nothing else changes but what
    has been counted. -/
structure Fills (i : Ingestion) (vs : List Int) (j : Ingestion) : Prop where
  queue_eq : j.queue = i.queue ++ vs.take i.free
  submitted_eq : j.counters.submitted.count = i.counters.submitted.count + (vs.take i.free).length
  rejected_eq : j.counters.rejected.count = i.counters.rejected.count + (vs.drop i.free).length
  counters_eq : { j.counters with
    submitted := i.counters.submitted
    rejected := i.counters.rejected } = i.counters
  others : j.intake = i.intake ∧ j.node = i.node ∧ j.phase = i.phase ∧
    j.signalled = i.signalled ∧ j.abandoned = i.abandoned ∧ j.waiting = i.waiting

/-- The first value is queued, and the others meet a queue that has one place less. -/
theorem Fills.queue {v : Int} {h : i.occupied < i.intake.places} (hfree : 0 < i.free)
    (hf : (i.accept v (room_of_occupied h)).Fills vs j) : i.Fills (v :: vs) j := by
  obtain ⟨n, hn⟩ : ∃ n, i.free = n + 1 := ⟨_, (Nat.sub_add_cancel hfree).symm⟩
  obtain ⟨hqueue, hsubmitted, hrejected, hcounters, hothers⟩ := hf
  rw [free_accept v h, hn, Nat.add_sub_cancel] at hqueue hsubmitted hrejected
  refine ⟨?_, ?_, ?_, ?_, hothers⟩
  · rw [hqueue, hn, List.take_succ_cons]
    exact List.append_assoc ..
  · rw [hsubmitted, hn, List.take_succ_cons, List.length_cons]
    exact Nat.add_right_comm _ 1 _
  · rw [hrejected, hn, List.drop_succ_cons]
    rfl
  · exact congrArg (fun c => { c with submitted := i.counters.submitted }) hcounters

/-- The first value comes back, and so do all the others. -/
theorem Fills.refuse {v : Int} (hfree : i.free = 0) (hf : i.countRefusal.Fills vs j) :
    i.Fills (v :: vs) j := by
  obtain ⟨hqueue, hsubmitted, hrejected, hcounters, hothers⟩ := hf
  rw [free_countRefusal, hfree] at hqueue hsubmitted hrejected
  refine ⟨?_, ?_, ?_, ?_, hothers⟩
  · rw [hqueue, hfree]
    rfl
  · rw [hsubmitted, hfree]
    rfl
  · rw [hrejected, hfree, List.drop_zero, List.drop_zero, List.length_cons]
    exact Nat.add_right_comm _ 1 _
  · exact congrArg (fun c => { c with rejected := i.counters.rejected }) hcounters

theorem fills_submitAll (i : Ingestion) (vs : List Int) :
    refused (i.submitAll vs).1 = vs.drop i.free ∧ i.Fills vs (i.submitAll vs).2 := by
  induction vs generalizing i with
  | nil => exact ⟨List.drop_nil.symm, by simp [submitAll], by simp [submitAll], by simp [submitAll],
      rfl, rfl, rfl, rfl, rfl, rfl, rfl⟩
  | cons v vs ih =>
    obtain ⟨hrefused, hfills⟩ := ih (i.submit v).2
    rw [submitAll_cons]
    rcases submit_cases i v with ⟨h, hfree, hs⟩ | ⟨e, rfl, hfree, hs⟩
    · rw [hs] at hrefused hfills ⊢
      refine ⟨hrefused.trans ?_, hfills.queue (h := h) hfree⟩
      rw [free_accept v h, ← List.drop_succ_cons, Nat.sub_add_cancel hfree]
    · rw [hs] at hrefused hfills ⊢
      refine ⟨(congrArg (e.value :: ·) hrefused).trans ?_, hfills.refuse hfree⟩
      rw [free_countRefusal, hfree]
      rfl

/-! ### Posting again what came back -/

/-- While nobody else gets anything in, the queue is emptied, and it is open; nobody waits. -/
structure Empties (i : Ingestion) (gap : List Step) : Prop where
  accepted_eq : accepted (i.run gap).1 = []
  serving : (i.run gap).2.phase = .serving
  queue_eq : (i.run gap).2.queue = []
  waiting_eq : (i.run gap).2.waiting = []

/-- Values are submitted, and what came back is submitted again a number of times, each time after the
    open queue has been emptied: what comes back in the end, what was handed over meanwhile, and the
    ingestion. -/
inductive Retried (i : Ingestion) (vs : List Int) :
    Nat → List Int → List (List Int) → Ingestion → Prop where
  | once : Retried i vs 0 (refused (i.submitAll vs).1) [] (i.submitAll vs).2
  | again {n : Nat} {left : List Int} {handed : List (List Int)} {j : Ingestion} {gap : List Step}
      (h : Retried i vs n left handed j) (he : j.Empties gap) :
      Retried i vs (n + 1) (refused ((j.run gap).2.submitAll left).1)
        (handed ++ batches (j.run gap).1) ((j.run gap).2.submitAll left).2

/-- What is handed over while a queue is emptied is the queue. -/
theorem Empties.flatten_batches {gap : List Step} (he : i.Empties gap) :
    (batches (i.run gap).1).flatten = i.queue := by
  have hbalance := conserved_of_kept i gap (Or.inr (Or.inr he.serving))
  rw [he.queue_eq, he.accepted_eq, List.append_nil, List.append_nil] at hbalance
  exact hbalance

/-- An open queue that is empty has all its places to give. -/
theorem Empties.free_eq {gap : List Step} (he : i.Empties gap) :
    (i.run gap).2.free = i.intake.places := by
  rw [free_of_waiting he.serving he.waiting_eq, he.queue_eq, intake_run]
  rfl

variable {n : Nat} {left : List Int} {handed : List (List Int)}

/-- Each time a queue full of values is taken off the front of what is left. -/
theorem Retried.law (h : Retried i vs n left handed j) :
    j.intake = i.intake ∧ left = vs.drop (i.free + n * i.intake.places) ∧
      handed.flatten ++ j.queue = i.queue ++ vs.take (i.free + n * i.intake.places) := by
  induction h with
  | once =>
    obtain ⟨hrefused, hfills⟩ := fills_submitAll i vs
    rw [Nat.zero_mul, Nat.add_zero]
    exact ⟨hfills.others.1, hrefused, hfills.queue_eq⟩
  | @again n left handed j gap h he ih =>
    obtain ⟨hintake, hleft, hbalance⟩ := ih
    obtain ⟨hrefused, hfills⟩ := fills_submitAll (j.run gap).2 left
    have hfree : (j.run gap).2.free = i.intake.places := he.free_eq.trans (by rw [hintake])
    have hround : i.free + (n + 1) * i.intake.places =
        i.free + n * i.intake.places + i.intake.places := by
      rw [Nat.succ_mul, Nat.add_assoc]
    refine ⟨hfills.others.1.trans ((intake_run j gap).trans hintake), ?_, ?_⟩
    · rw [hrefused, hfree, hleft, List.drop_drop, hround]
    · rw [hfills.queue_eq, hfree, he.queue_eq, List.nil_append, List.flatten_append,
        he.flatten_batches, hbalance, hleft, List.append_assoc, hround, ← List.take_add]

/-- Once there were places enough, nothing is left, and when the queue has been emptied once more all
    values have been handed over. -/
theorem Retried.delivered (h : Retried i vs n left handed j)
    (hn : vs.length ≤ i.free + n * i.intake.places) {gap : List Step} (he : j.Empties gap) :
    left = [] ∧ (handed ++ batches (j.run gap).1).flatten = i.queue ++ vs := by
  obtain ⟨-, hleft, hbalance⟩ := h.law
  refine ⟨hleft.trans (List.drop_eq_nil_of_le hn), ?_⟩
  rw [List.flatten_append, he.flatten_batches, hbalance, List.take_of_length_le hn]

theorem Healthy.empties (hi : i.Healthy) (hw : i.waiting = []) :
    i.Empties (Ingestion.turns i.enough) where
  accepted_eq := accepted_turns i i.enough
  serving := (hi.turns i.enough).serving
  queue_eq := (settle_then_stop hi.serving hi.fits hi.unsignalled).2.1
  waiting_eq := (waiting_turns i i.enough).trans hw

theorem Fills.healthy (h : i.Fills vs j) (hi : i.Healthy) : j.Healthy := by
  obtain ⟨hintake, -, hphase, hsignalled, habandoned, -⟩ := h.others
  exact ⟨hphase.trans hi.serving, hintake ▸ hi.fits, hsignalled.trans hi.unsignalled,
    habandoned.trans hi.wanted⟩

theorem Fills.waiting_eq (h : i.Fills vs j) : j.waiting = i.waiting := h.others.2.2.2.2.2

/-- As long as the worker goes on serving one can post again. -/
theorem Healthy.retried (hi : i.Healthy) (hw : i.waiting = []) (vs : List Int) (n : Nat) :
    ∃ left handed j, Retried i vs n left handed j ∧ j.Healthy ∧ j.waiting = [] := by
  induction n with
  | zero =>
    have hfills := (fills_submitAll i vs).2
    exact ⟨_, _, _, .once, hfills.healthy hi, hfills.waiting_eq.trans hw⟩
  | succ n ih =>
    obtain ⟨left, handed, j, h, hj, hw'⟩ := ih
    have hfills := (fills_submitAll j.settle left).2
    exact ⟨_, _, _, .again h (hj.empties hw'), hfills.healthy (hj.turns j.enough),
      hfills.waiting_eq.trans ((waiting_turns j j.enough).trans hw')⟩

end Ingestion

namespace Service
open Ingestion (Retried Healthy batches)

variable {r : Service} {id : Nat} {l : Lane}

/-- The response to whoever submitted values, made of the answers. -/
def receipt (rs : List (Except IngestError Unit)) : Http.Response :=
  .ofJson 202 (.object [("accepted", .nat (rs.length - (refused rs).length)),
    ("rejected", .array ((refused rs).map .int))])

/-- The program with another ingestion in the lane at a position. -/
def putIngestion (r : Service) (k : Nat) (l : Lane) (j : Ingestion) : Service :=
  { r with lanes := r.lanes.set k { l with ingestion := j } }

/-- Submits values to a node's queue while other steps are taken there, and responds. -/
def postAmong (r : Service) (id : Nat) (gaps : List (List Ingestion.Step × Int)) :
    Http.Response × Service :=
  match r.onLane id fun l =>
    ((l.ingestion.submitAmong gaps).1,
      { l with ingestion := (l.ingestion.submitAmong gaps).2 }) with
  | (none, r') => (unknownNode id, r')
  | (some rs, r') => (receipt rs, r')

/-- A request is the case in which no other steps are taken. -/
theorem answer_submit (r : Service) (id : Nat) (vs : List Int) :
    r.answer (.submit ⟨id, vs⟩) = r.postAmong id (vs.map ([], ·)) := by
  simp only [answer, submit, postAmong, Ingestion.submitAmong_map]
  rfl

theorem position?_of_lane? (hl : r.lane? id = some l) :
    ∃ k, r.position? id = some k ∧ r.lanes[k]? = some l := by
  rw [lane?, List.find?_eq_bind_findIdx?_getElem?] at hl
  exact Option.bind_eq_some_iff.1 hl

/-- The lane of a known node takes the values, and no other lane changes. -/
theorem postAmong_of_position? {k : Nat} (hp : r.position? id = some k)
    (hk : r.lanes[k]? = some l) (gaps : List (List Ingestion.Step × Int)) :
    r.postAmong id gaps = (receipt (l.ingestion.submitAmong gaps).1,
      r.putIngestion k l (l.ingestion.submitAmong gaps).2) := by
  simp only [postAmong, onLane, hp, hk, putIngestion]

/-- What the response to posted values is, and what becomes of them in the lane of a known node. -/
structure Posts (r : Service) (id k : Nat) (l : Lane) : Prop where
  /-- Whatever goes on at the queue beside the request, each value is queued or comes back. -/
  among : ∀ gaps : List (List Ingestion.Step × Int), ∃ accepted rejected j,
    l.ingestion.Takes gaps accepted rejected j ∧
    r.postAmong id gaps =
      (.ofJson 202 (.object [("accepted", .nat accepted), ("rejected", .array (rejected.map .int))]),
        r.putIngestion k l j)
  /-- If nothing goes on beside it, the queue is filled up with the first of the values. -/
  request : ∀ q vs, q.call = .ok (.submit ⟨id, vs⟩) →
    (r.respond q).1.status = 202 ∧
    (r.respond q).1.body = .json (.object
      [("accepted", .nat (vs.take l.ingestion.free).length),
        ("rejected", .array ((vs.drop l.ingestion.free).map .int))]) ∧
    (r.respond q).2 = r.putIngestion k l (l.ingestion.submitAll vs).2 ∧
    refused (l.ingestion.submitAll vs).1 = vs.drop l.ingestion.free ∧
    l.ingestion.Fills vs (l.ingestion.submitAll vs).2
  /-- What came back is posted again, each time after the open queue has been emptied. -/
  again : ∀ n vs left handed j, Retried l.ingestion vs n left handed j →
    left = vs.drop (l.ingestion.free + n * l.ingestion.intake.places) ∧
    handed.flatten ++ j.queue =
      l.ingestion.queue ++ vs.take (l.ingestion.free + n * l.ingestion.intake.places)
  /-- Once there have been places for all values, and the queue has been emptied once more, they have
      all been handed over. -/
  delivered : ∀ n vs left handed j gap, Retried l.ingestion vs n left handed j → j.Empties gap →
    vs.length ≤ l.ingestion.free + n * l.ingestion.intake.places →
    left = [] ∧ (handed ++ batches (j.run gap).1).flatten = l.ingestion.queue ++ vs
  /-- Where nobody waits, a worker that goes on serving empties the queue each time. -/
  healthy : l.ingestion.Healthy → l.ingestion.waiting = [] → ∀ n vs, ∃ left handed j gap,
    Retried l.ingestion vs n left handed j ∧ j.Empties gap

theorem length_sub_length_drop (vs : List Int) (n : Nat) :
    vs.length - (vs.drop n).length = (vs.take n).length := by
  rw [List.length_drop, List.length_take]
  omega

/-- Values that are posted to a known node, whatever its queue holds and whether it is open or closed,
    are queued or come back, and those that came back can be posted again until all have been handed
    over. -/
theorem posted_accounted (hl : r.lane? id = some l) :
    ∃ k, r.position? id = some k ∧ r.lanes[k]? = some l ∧ r.Posts id k l := by
  obtain ⟨k, hp, hk⟩ := position?_of_lane? hl
  have hpost := postAmong_of_position? hp hk
  refine ⟨k, hp, hk, ?_, ?_, ?_, ?_, ?_⟩
  · intro gaps
    obtain ⟨hlength, accepted, ht⟩ := l.ingestion.takes_submitAmong gaps
    refine ⟨accepted, _, _, ht, ?_⟩
    have haccepted : (l.ingestion.submitAmong gaps).1.length -
        (refused (l.ingestion.submitAmong gaps).1).length = accepted := by
      rw [hlength, ← ht.length_eq, Nat.add_sub_cancel]
    rw [hpost, receipt, haccepted]
  · intro q vs hq
    obtain ⟨hrefused, hfills⟩ := l.ingestion.fills_submitAll vs
    obtain ⟨hstatus, hbody, hend⟩ := respond_of_call (r := r) hq
    rw [answer_submit, hpost, Ingestion.submitAmong_map] at hstatus hbody hend
    rw [receipt, hrefused, Ingestion.length_submitAll, length_sub_length_drop] at hstatus hbody
    refine ⟨hstatus, hbody ?_, hend, hrefused, hfills⟩
    -- Events come with `POST`, so the response has its body.
    rcases Http.Request.method_of_call hq with ⟨hm, -⟩ | ⟨-, hno⟩
    · rw [hm]
      decide
    · exact absurd rfl (hno _)
  · exact fun n vs left handed j h => h.law.2
  · exact fun n vs left handed j gap h he hn => h.delivered hn he
  · intro hi hw n vs
    obtain ⟨left, handed, j, h, hj, hw'⟩ := hi.retried hw vs n
    exact ⟨left, handed, j, _, h, hj.empties hw'⟩

/-- One place is left in a queue of three. What comes back fits in when the queue has been emptied. -/
theorem posted_accounted_of_full :
    let c : Config := { Config.standard with
      windowCapacity := 2, nodes := 1, queueCapacity := 3, batchSize := 2 }
    let r := (launched c Nat.two_pos (fun _ => ⟨0, 0⟩) none).run [.submit 0 [9, 9]]
    ∃ l, r.lane? 0 = some l ∧
      (r.respond ⟨"POST", "/events", [("content-type", "application/json")],
        "\x7b\"node\": 0, \"values\": [5, 4, 5, 6]\x7d"⟩).1.body =
        .json (.object [("accepted", .nat 1), ("rejected", .array [.int 4, .int 5, .int 6])]) ∧
      ∃ left handed j gap, Retried l.ingestion [5, 4, 5, 6] 1 left handed j ∧ j.Empties gap ∧
        left = [] ∧ (handed ++ batches (j.run gap).1).flatten = [9, 9, 5, 4, 5, 6] := by
  intro c r
  have hl : r.lane? 0 = some ((Lane.start c Nat.two_pos none 0).obey (.submit [9, 9])) := rfl
  obtain ⟨k, -, -, hposts⟩ := posted_accounted hl
  refine ⟨_, hl, ?_, ?_⟩
  · exact (hposts.request _ [5, 4, 5, 6] (by decide +kernel)).2.1.trans rfl
  · have hhealthy : ((Lane.start c Nat.two_pos none 0).obey (.submit [9, 9])).ingestion.Healthy :=
      ⟨by decide +kernel, by decide +kernel, by decide +kernel, by decide +kernel⟩
    obtain ⟨left, handed, j, gap, h, he⟩ := hposts.healthy hhealthy rfl 1 [5, 4, 5, 6]
    obtain ⟨hleft, hall⟩ :=
      hposts.delivered 1 [5, 4, 5, 6] left handed j gap h he (by decide +kernel)
    exact ⟨left, handed, j, gap, h, he, hleft, hall.trans (by decide +kernel)⟩

end Service

end WindowedMean
