import WindowedMean.Proofs.Filling
import WindowedMean.Proofs.GroupStop
import WindowedMean.Proofs.Producing
import WindowedMean.Proofs.Rebatching
import WindowedMean.Service

/-! All that one step of a program does to each of its lanes.

    A request goes to one lane and leaves the others alone, time goes on in all of them at once, and
    a reduction only looks. So a step is an *order* to each lane, and most orders are to rest:

        POST /events, submit             to the lane with the node's number
        attempt, retry, leave            to the lane with the node's number
        turn, switch                     to the lane with the node's number
        settle, cycle                    to every lane
        GET …, reduce                    to none

    `getElem?_step` says that the orders are all there is to a step, as far as lanes go. What a lane
    does when it is given an order is a row of steps of its ingestion (`Lane.obey_eq_run`). -/

namespace WindowedMean

/-! ### Orders -/

/-- What a lane may be asked to do. -/
inductive Lane.Order where
  | rest
  | submit (vs : List Int)
  | attempt (v : Int)
  | retry (k : Nat)
  | leave (k : Nat)
  | turn
  | advance (time : Nat)
  | switch (on : Bool)
  deriving DecidableEq, Repr

namespace Lane

/-- The lane does what it is asked. -/
def obey (l : Lane) : Order → Lane
  | .rest => l
  | .submit vs => { l with ingestion := (l.ingestion.submitAll vs).2 }
  | .attempt v => { l with ingestion := (l.ingestion.attempt v).2 }
  | .retry k => { l with ingestion := (l.ingestion.retry k).2 }
  | .leave k => { l with ingestion := l.ingestion.leave k }
  | .turn => { l with ingestion := l.ingestion.turn.2 }
  | .advance time => l.advance time
  | .switch on => { l with reachable := on }

/-- The lane is shut down: its producer ends, and its ingestion stops. -/
def stop (l : Lane) : Lane := { l.stopProducer with ingestion := l.ingestion.stop }

/-- The lane of a node in a program that has just been started. -/
def start (c : Config) (h : 0 < c.windowCapacity) (streams : Option (Nat → Nat → UInt64))
    (id : Nat) : Lane where
  ingestion := .ofCapacity id h c.intake
  producer := streams.map fun outside => .start (c.producer id) (outside id)
  reachable := true

end Lane

namespace Ingestion

theorem submitAll_eq_run (i : Ingestion) (vs : List Int) :
    (i.submitAll vs).2 = (i.run (vs.map .submit)).2 := by
  induction vs generalizing i with
  | nil => rfl
  | cons v vs ih =>
    have hstep : (i.step (.submit v)).2 = (i.submit v).2 := by
      rw [step]
      rcases i.submit v with ⟨_ | _, j⟩ <;> rfl
    rw [List.map_cons, run_cons, hstep, ← ih]
    rfl

theorem snd_step_attempt (i : Ingestion) (v : Int) :
    (i.step (.attempt v)).2 = (i.attempt v).2 := by
  rw [step]
  rcases i.attempt v with ⟨_ | _ | _, j⟩ <;> rfl

theorem snd_step_retry (i : Ingestion) (k : Nat) : (i.step (.retry k)).2 = (i.retry k).2 := by
  cases hw : i.waiting[k]? with
  | none => simp only [step, retry, hw]
  | some v =>
    simp only [step, hw]
    rcases i.retry k with ⟨_ | _ | _, j⟩ <;> rfl

theorem offered_map_submit (vs : List Int) : offered (vs.map .submit) = vs := by
  induction vs with
  | nil => rfl
  | cons v vs ih => exact congrArg (v :: ·) ih

end Ingestion

namespace Lane
open Ingestion (offered turns)

/-- The values that an order brings along. -/
def Order.values : Order → List Int
  | .submit vs => vs
  | .attempt v => [v]
  | _ => []

/-- Where there is no producer, an order is a row of steps of the ingestion. -/
def Order.steps (i : Ingestion) : Order → List Ingestion.Step
  | .submit vs => vs.map .submit
  | .attempt v => [.attempt v]
  | .retry k => [.retry k]
  | .leave k => [.leave k]
  | .turn => [.turn]
  | .advance _ => turns i.enough
  | .rest => []
  | .switch _ => []

theorem offered_steps (i : Ingestion) (o : Order) : offered (o.steps i) = o.values := by
  cases o with
  | submit vs => exact Ingestion.offered_map_submit vs
  | advance time => exact Ingestion.offered_turns i.enough
  | _ => rfl

theorem obey_of_idle {l : Lane} (hl : l.producer = none) (o : Order) :
    (l.obey o).ingestion = (l.ingestion.run (o.steps l.ingestion)).2 ∧
      (l.obey o).producer = none := by
  cases o with
  | submit vs => exact ⟨l.ingestion.submitAll_eq_run vs, hl⟩
  | attempt v => exact ⟨(l.ingestion.snd_step_attempt v).symm, hl⟩
  | retry k => exact ⟨(l.ingestion.snd_step_retry k).symm, hl⟩
  | leave k => exact ⟨rfl, hl⟩
  | turn => exact ⟨l.ingestion.snd_step_turn.symm, hl⟩
  | advance time =>
    rw [obey, advance, hl]
    exact ⟨rfl, rfl⟩
  | rest => exact ⟨rfl, hl⟩
  | switch on => exact ⟨rfl, hl⟩

/-- Whatever a lane is asked to do, its ingestion takes a row of steps, and what is offered to the
    queue comes with the order or from the producer. -/
theorem obey_eq_run (l : Lane) (o : Order) :
    (∃ steps, (l.obey o).ingestion = (l.ingestion.run steps).2 ∧
      ∀ v ∈ offered steps, v ∈ o.values ∨ ∃ p, l.producer = some p ∧ p.Draws v) ∧
    (l.obey o).producer.map Producer.settings = l.producer.map Producer.settings := by
  cases hp : l.producer with
  | none =>
    obtain ⟨hrun, hnone⟩ := obey_of_idle hp o
    refine ⟨⟨_, hrun, fun v hv => Or.inl ?_⟩, by rw [hnone]⟩
    rw [offered_steps] at hv
    exact hv
  | some p =>
    by_cases htime : ∃ time, o = .advance time
    · obtain ⟨time, rfl⟩ := htime
      obtain ⟨hsettings, steps, hrun, hdraws⟩ := p.feeds_advance time l.ingestion
      rw [obey, advance, hp]
      exact ⟨⟨steps, hrun, fun v hv => Or.inr ⟨p, rfl, hdraws v hv⟩⟩, congrArg some hsettings⟩
    · -- Without time going by a producer does nothing, and the lane is as good as idle.
      have hidle : (l.obey o).ingestion = ({ l with producer := none }.obey o).ingestion ∧
          (l.obey o).producer = l.producer := by
        cases o with
        | advance time => exact absurd ⟨time, rfl⟩ htime
        | _ => exact ⟨rfl, rfl⟩
      refine ⟨⟨_, hidle.1.trans (obey_of_idle rfl o).1, fun v hv => Or.inl ?_⟩, ?_⟩
      · rw [offered_steps] at hv
        exact hv
      · rw [hidle.2, hp]

theorem id_obey (l : Lane) (o : Order) : (l.obey o).node.id = l.node.id := by
  obtain ⟨⟨steps, hrun, -⟩, -⟩ := l.obey_eq_run o
  rw [node, hrun]
  exact Ingestion.id_run l.ingestion steps

theorem id_stop (l : Lane) : l.stop.node.id = l.node.id :=
  Ingestion.id_run l.ingestion l.ingestion.stopping

end Lane

/-- The submission that a request brings the program, if it is understood and brings one. -/
def Http.Request.posted? (q : Http.Request) : Option Submission :=
  if Http.isPreflight q then none
  else
    match q.call with
    | .ok (.submit s) => some s
    | _ => none

namespace Service

/-! ### Steps of a program -/

/-- The first try of a caller who is willing to wait for a place in a node's queue; no answer where
    there is no such node. -/
def attempt (r : Service) (id : Nat) (v : Int) :
    Option (Option (Except IngestError Unit)) × Service :=
  r.onLane id fun l => ((l.ingestion.attempt v).1, l.obey (.attempt v))

/-- The caller at a position in the line before a node's queue looks again; no answer where there is no
    such node. -/
def retry (r : Service) (id k : Nat) : Option (Option (Except IngestError Unit)) × Service :=
  r.onLane id fun l => ((l.ingestion.retry k).1, l.obey (.retry k))

/-- The caller at a position in the line before a node's queue gives up. -/
def leave (r : Service) (id k : Nat) : Service := (r.onLane id fun l => ((), l.obey (.leave k))).2

/-- One turn of a node's worker. -/
def turn (r : Service) (id : Nat) : Service := (r.onLane id fun l => ((), l.obey .turn)).2

/-- One cycle of the reduce loop while no time goes by; the waits for the nodes end as given. -/
def reduce (r : Service) (endings : List Ending) : Service :=
  { r with loop := (r.loop.cycle (r.cluster.collect meanKey endings) (r.clock r.now)).2 }

/-- What may happen to a running program. -/
inductive Step where
  | request (q : Http.Request)
  | submit (id : Nat) (vs : List Int)
  | attempt (id : Nat) (v : Int)
  | retry (id k : Nat)
  | leave (id k : Nat)
  | turn (id : Nat)
  | settle
  | switch (id : Nat) (on : Bool)
  | reduce (endings : List Ending)
  | cycle
  deriving DecidableEq, Repr

/-- One step. -/
def step (r : Service) : Step → Service
  | .request q => (r.respond q).2
  | .submit id vs => (r.submit id vs).2
  | .attempt id v => (r.attempt id v).2
  | .retry id k => (r.retry id k).2
  | .leave id k => r.leave id k
  | .turn id => r.turn id
  | .settle => r.settle
  | .switch id on => (r.setReachable id on).2
  | .reduce endings => r.reduce endings
  | .cycle => r.cycle.2

/-- A row of steps. -/
def run (r : Service) (steps : List Step) : Service := steps.foldl step r

/-- The order goes to the lane with a node's number, and the others rest. -/
def aim (r : Service) (id k : Nat) (o : Lane.Order) : Lane.Order :=
  if r.position? id = some k then o else .rest

/-- What a step asks of the lane at a position. -/
def order (r : Service) (k : Nat) : Step → Lane.Order
  | .request q =>
    match q.posted? with
    | some b => r.aim b.node k (.submit b.values)
    | none => .rest
  | .submit id vs => r.aim id k (.submit vs)
  | .attempt id v => r.aim id k (.attempt v)
  | .retry id j => r.aim id k (.retry j)
  | .leave id j => r.aim id k (.leave j)
  | .turn id => r.aim id k .turn
  | .settle => .advance r.now
  | .switch id on => r.aim id k (.switch on)
  | .reduce _ => .rest
  | .cycle =>
    if r.ended then .rest
    else if r.loop.runs then .advance r.loop.due
    else if r.started then .rest
    else .advance r.now

/-! ### There is no more to a step -/

theorem getElem?_onLane {α : Type} (r : Service) (id k : Nat) (f : Lane → α × Lane) :
    (r.onLane id f).2.lanes[k]? =
      r.lanes[k]?.map fun l => if r.position? id = some k then (f l).2 else l := by
  cases hp : r.position? id with
  | none =>
    simp only [onLane, hp]
    exact Option.map_id'.symm
  | some j =>
    cases hj : r.lanes[j]? with
    | none =>
      simp only [onLane, hp, hj]
      by_cases hk : j = k
      · subst hk
        rw [hj]
        rfl
      · have hne : some j ≠ some k := fun h => hk (Option.some.inj h)
        simp only [if_neg hne]
        exact Option.map_id'.symm
    | some l =>
      simp only [onLane, hp, hj]
      by_cases hk : j = k
      · subst hk
        rw [List.getElem?_set_self (List.getElem?_eq_some_iff.1 hj).1, hj]
        exact (congrArg some (if_pos rfl)).symm
      · have hne : some j ≠ some k := fun h => hk (Option.some.inj h)
        rw [List.getElem?_set_ne hk]
        simp only [if_neg hne]
        exact Option.map_id'.symm

/-- An answer and a lane that goes with it: the lane is all that an order is about. -/
theorem getElem?_onLane_obey {α : Type} (r : Service) (id k : Nat) {f : Lane → α × Lane}
    {o : Lane.Order} (hf : ∀ l, (f l).2 = l.obey o) :
    (r.onLane id f).2.lanes[k]? = r.lanes[k]?.map fun l => l.obey (r.aim id k o) := by
  rw [getElem?_onLane]
  congr 1
  funext l
  rw [aim]
  split
  · exact hf l
  · rfl

theorem snd_respond (r : Service) (q : Http.Request) :
    (r.respond q).2 =
      match q.posted? with
      | some b => (r.submit b.node b.values).2
      | none => r := by
  by_cases hpre : Http.isPreflight q
  · simp only [respond, Http.Request.posted?, if_pos hpre]
  · simp only [respond, Http.Request.posted?, if_neg hpre]
    rcases q.call with e | call
    · rfl
    · cases call with
      | health => rfl
      | average =>
        simp only [answer]
        cases r.loop.latest <;> rfl
      | status id =>
        simp only [answer]
        cases r.status? id <;> rfl
      | submit s =>
        simp only [answer]
        rcases r.submit s.node s.values with ⟨_ | rs, r'⟩ <;> rfl

theorem snd_setReachable (r : Service) (id : Nat) (on : Bool) :
    (r.setReachable id on).2 = (r.onLane id fun l => ((), l.obey (.switch on))).2 := by
  simp only [setReachable, Lane.obey]
  rcases r.onLane id _ with ⟨_ | _, r'⟩ <;> rfl

theorem getElem?_advance (r : Service) (time k : Nat) :
    (r.lanes.map (·.advance time))[k]? = r.lanes[k]?.map fun l => l.obey (.advance time) :=
  List.getElem?_map

theorem getElem?_rest (r : Service) (k : Nat) :
    r.lanes[k]? = r.lanes[k]?.map fun l => l.obey .rest := Option.map_id'.symm

/-- After a step, every lane has done what it was asked. -/
theorem getElem?_step (r : Service) (s : Step) (k : Nat) :
    (r.step s).lanes[k]? = r.lanes[k]?.map fun l => l.obey (r.order k s) := by
  cases s with
  | request q =>
    rw [step, snd_respond, order]
    cases q.posted? with
    | none => exact r.getElem?_rest k
    | some b => exact r.getElem?_onLane_obey b.node k fun _ => rfl
  | submit id vs => exact r.getElem?_onLane_obey id k fun _ => rfl
  | attempt id v => exact r.getElem?_onLane_obey id k fun _ => rfl
  | retry id j => exact r.getElem?_onLane_obey id k fun _ => rfl
  | leave id j => exact r.getElem?_onLane_obey id k fun _ => rfl
  | turn id => exact r.getElem?_onLane_obey id k fun _ => rfl
  | settle => exact r.getElem?_advance r.now k
  | switch id on =>
    rw [step, snd_setReachable]
    exact r.getElem?_onLane_obey id k fun _ => rfl
  | reduce endings => exact r.getElem?_rest k
  | cycle =>
    rw [step, cycle, order]
    cases r.ended with
    | true => exact r.getElem?_rest k
    | false =>
      cases r.loop.runs with
      | true => exact r.getElem?_advance r.loop.due k
      | false =>
        cases r.started with
        | true => exact r.getElem?_rest k
        | false => exact r.getElem?_advance r.now k

/-- A property that every lane has once it has done what it was asked holds of all lanes after the
    step. -/
theorem forall_lanes_step {r : Service} {s : Step} {P : Nat → Lane → Prop}
    (h : ∀ (k : Nat) (l : Lane), r.lanes[k]? = some l → P k (l.obey (r.order k s))) :
    ∀ (k : Nat) (l : Lane), (r.step s).lanes[k]? = some l → P k l := by
  intro k l hl
  rw [getElem?_step] at hl
  obtain ⟨l', hl', rfl⟩ := Option.map_eq_some_iff.1 hl
  exact h k l' hl'

/-! ### Nodes by number -/

/-- Every node has the number of its place in the row. -/
def Numbered (r : Service) : Prop := ∀ (k : Nat) (l : Lane), r.lanes[k]? = some l → l.node.id = k

theorem Numbered.position?_eq {r : Service} (hr : r.Numbered) (id : Nat) :
    r.position? id = if id < r.lanes.length then some id else none := by
  by_cases h : id < r.lanes.length
  · rw [if_pos h, position?, List.findIdx?_eq_some_iff_getElem]
    refine ⟨h, ?_, fun j hj hid => ?_⟩
    · rw [hr id _ (List.getElem?_eq_getElem h)]
      exact beq_self_eq_true id
    · have hlt := Nat.lt_trans hj h
      rw [hr j _ (List.getElem?_eq_getElem hlt)] at hid
      exact Nat.ne_of_lt hj (beq_iff_eq.1 hid)
  · rw [if_neg h, position?, List.findIdx?_eq_none_iff]
    intro l hl
    obtain ⟨k, hk⟩ := List.mem_iff_getElem?.1 hl
    rw [hr k l hk, beq_eq_false_iff_ne]
    rintro rfl
    exact h (List.getElem?_eq_some_iff.1 hk).1

theorem Numbered.lane?_eq {r : Service} (hr : r.Numbered) (id : Nat) :
    r.lane? id = r.lanes[id]? := by
  rw [lane?, List.find?_eq_bind_findIdx?_getElem?]
  change (r.position? id).bind (r.lanes[·]?) = _
  rw [hr.position?_eq]
  by_cases h : id < r.lanes.length
  · rw [if_pos h]
    rfl
  · rw [if_neg h, List.getElem?_eq_none (Nat.le_of_not_lt h)]
    rfl

theorem Numbered.aim_eq {r : Service} (hr : r.Numbered) {k : Nat} {l : Lane}
    (hk : r.lanes[k]? = some l) (id : Nat) (o : Lane.Order) :
    r.aim id k o = if id = k then o else .rest := by
  have hlt := (List.getElem?_eq_some_iff.1 hk).1
  rw [aim, hr.position?_eq]
  by_cases h : id = k
  · subst h
    rw [if_pos hlt, if_pos rfl, if_pos rfl]
  · rw [if_neg h]
    refine if_neg fun hid => h ?_
    split at hid
    · exact Option.some.inj hid
    · cases hid

theorem Numbered.step {r : Service} (hr : r.Numbered) (s : Step) : (r.step s).Numbered :=
  forall_lanes_step fun k l hl => (l.id_obey _).trans (hr k l hl)

/-- A row whose entries come from another row, place by place, is as long. -/
theorem length_eq_of_getElem?_map {xs ys : List Lane} {f : Nat → Lane → Lane}
    (h : ∀ k : Nat, ys[k]? = xs[k]?.map (f k)) : ys.length = xs.length := by
  refine Nat.le_antisymm (List.getElem?_eq_none_iff.1 ?_) (List.getElem?_eq_none_iff.1 ?_)
  · rw [h, List.getElem?_eq_none (Nat.le_refl _), Option.map_none]
  · have hnone := h ys.length
    rw [List.getElem?_eq_none (Nat.le_refl _)] at hnone
    exact Option.map_eq_none_iff.1 hnone.symm

theorem length_step (r : Service) (s : Step) : (r.step s).lanes.length = r.lanes.length :=
  length_eq_of_getElem?_map (r.getElem?_step s)

/-! ### Shutting down -/

theorem getElem?_shutdown (r : Service) (k : Nat) :
    r.shutdown.lanes[k]? = r.lanes[k]?.map Lane.stop := by
  simp only [shutdown, Ingestion.stopAll_eq_map, List.map_map, List.getElem?_zipWith,
    List.getElem?_map]
  cases r.lanes[k]? <;> rfl

/-- A property that every lane has once it has stopped holds of all lanes after the shutdown. -/
theorem forall_lanes_shutdown {r : Service} {P : Nat → Lane → Prop}
    (h : ∀ (k : Nat) (l : Lane), r.lanes[k]? = some l → P k l.stop) :
    ∀ (k : Nat) (l : Lane), r.shutdown.lanes[k]? = some l → P k l := by
  intro k l hl
  rw [getElem?_shutdown] at hl
  obtain ⟨l', hl', rfl⟩ := Option.map_eq_some_iff.1 hl
  exact h k l' hl'

theorem Numbered.shutdown {r : Service} (hr : r.Numbered) : r.shutdown.Numbered :=
  forall_lanes_shutdown fun k l hl => l.id_stop.trans (hr k l hl)

theorem length_shutdown (r : Service) : r.shutdown.lanes.length = r.lanes.length :=
  length_eq_of_getElem?_map r.getElem?_shutdown

/-! ### Starting -/

/-- A program that has been started, before its first turn. -/
def launched (c : Config) (h : 0 < c.windowCapacity) (clock : Clock)
    (streams : Option (Nat → Nat → UInt64)) : Service where
  lanes := (List.range c.nodes).map (Lane.start c h streams)
  loop := .start c.reduceIntervalMs c.ideal
  clock := clock
  timeout := c.nodeTimeoutMs
  now := 0
  started := false
  ended := false

theorem getElem?_launched {c : Config} {h : 0 < c.windowCapacity} {clock : Clock}
    {streams : Option (Nat → Nat → UInt64)} {k : Nat} (hk : k < c.nodes) :
    (launched c h clock streams).lanes[k]? = some (.start c h streams k) := by
  rw [launched, List.getElem?_map, List.getElem?_range hk]
  rfl

theorem length_launched (c : Config) (h : 0 < c.windowCapacity) (clock : Clock)
    (streams : Option (Nat → Nat → UInt64)) :
    (launched c h clock streams).lanes.length = c.nodes := by
  rw [launched, List.length_map, List.length_range]

theorem numbered_launched (c : Config) (h : 0 < c.windowCapacity) (clock : Clock)
    (streams : Option (Nat → Nat → UInt64)) : (launched c h clock streams).Numbered := by
  intro k l hl
  have hk := (List.getElem?_eq_some_iff.1 hl).1
  rw [length_launched] at hk
  rw [getElem?_launched hk] at hl
  cases hl
  rfl

theorem getElem?_of_mapM {α β ε : Type} {f : α → Except ε β} {xs : List α} {ys : List β}
    (h : xs.mapM f = .ok ys) {k : Nat} {y : β} (hk : ys[k]? = some y) :
    ∃ x, xs[k]? = some x ∧ f x = .ok y := by
  induction xs generalizing ys k with
  | nil =>
    cases h
    cases hk
  | cons x xs ih =>
    rw [List.mapM_cons] at h
    cases hx : f x with
    | error e =>
      rw [hx] at h
      cases h
    | ok y' =>
      rw [hx] at h
      cases hl : xs.mapM f with
      | error e =>
        rw [hl] at h
        cases h
      | ok later =>
        rw [hl] at h
        cases h
        cases k with
        | zero =>
          cases hk
          exact ⟨x, rfl, hx⟩
        | succ k => exact ih hl hk

theorem node_of_startAll {count capacity : Nat} {nodes : List Node}
    (h : Node.startAll count capacity = .ok nodes) {k : Nat} {n : Node} (hk : nodes[k]? = some n) :
    ∃ hc : 0 < capacity, n = .ofWindow k (.empty capacity hc) := by
  rw [Node.startAll] at h
  split at h
  · cases h
  · split at h
    · cases h
      cases hk
    · by_cases hc : 0 < capacity
      · rw [Window.ofCapacity?, dif_pos hc] at h
        cases h
        rw [List.getElem?_map] at hk
        obtain ⟨j, hj, rfl⟩ := Option.map_eq_some_iff.1 hk
        rw [List.getElem?_eq_some_iff] at hj
        obtain ⟨hlt, rfl⟩ := hj
        rw [List.getElem_range]
        exact ⟨hc, rfl⟩
      · rw [Window.ofCapacity?, dif_neg hc] at h
        cases h

/-- The lanes of a program that has been started, and its loop. -/
theorem of_start {c : Config} {clock : Clock} {streams : Option (Nat → Nat → UInt64)} {r : Service}
    (h : start c clock streams = .ok r) :
    (∀ (k : Nat) (l : Lane), r.lanes[k]? = some l →
      ∃ hc : 0 < c.windowCapacity, l = .start c hc streams k) ∧
    r.loop = .start c.reduceIntervalMs c.ideal := by
  rw [start] at h
  cases hn : Node.startAll c.nodes c.windowCapacity with
  | error e =>
    rw [hn] at h
    cases h
  | ok nodes =>
    rw [hn] at h
    cases hi : (nodes.mapM fun n => Ingestion.startChecked n c.intake) with
    | error e =>
      simp only [bind, Except.bind, hi] at h
      cases h
    | ok ingestions =>
      simp only [bind, Except.bind, hi] at h
      cases h
      refine ⟨fun k l hl => ?_, rfl⟩
      rw [List.getElem?_map] at hl
      obtain ⟨i, hik, rfl⟩ := Option.map_eq_some_iff.1 hl
      obtain ⟨n, hnk, hchecked⟩ := getElem?_of_mapM hi hik
      obtain ⟨hc, rfl⟩ := node_of_startAll hn hnk
      rw [Ingestion.startChecked] at hchecked
      split at hchecked
      · cases hchecked
      · cases hchecked
        exact ⟨hc, rfl⟩

end Service

end WindowedMean
