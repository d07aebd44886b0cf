import WindowedMean.Proofs.Lanes

/-! Where the values go that a program accepts, from its start to its end.

    Nothing crosses from one lane to another. What a lane goes through, from its start to the end of
    the shutdown, is the row of steps that the orders to it make (`passage`), and what it accepts is
    what those who submitted were told (`acceptedFor`):

        POST, submit, attempt, retry   →   queue   →   batches   →   window   →   GET /nodes/k
                               acceptedFor        the same       the last of what was taken

    So a lane has handed over all that was accepted for its node when it has been shut down. Requests
    about a node that there is not are turned away, and whoever only reads leaves no trace. -/

namespace WindowedMean

/-! ### Answers to those who submit -/

namespace Ingestion

/-- Those of the submitted values that were accepted, going by the answers. -/
def admitted (vs : List Int) (rs : List (Except IngestError Unit)) : List Int :=
  ((vs.zip rs).filter (·.2.isOk)).map (·.1)

theorem accepted_submitAll (i : Ingestion) (vs : List Int) :
    accepted (i.run (vs.map .submit)).1 = admitted vs (i.submitAll vs).1 := by
  induction vs generalizing i with
  | nil => rfl
  | cons v vs ih =>
    have hlater := ih (i.submit v).2
    rw [accepted, admitted] at hlater ⊢
    rw [List.map_cons, run_cons, step, submitAll, List.flatMap_cons, List.zip_cons_cons,
      List.filter_cons]
    generalize i.submit v = answer at hlater ⊢
    obtain ⟨_ | _, j⟩ := answer
    · exact hlater
    · exact congrArg (v :: ·) hlater

theorem length_submitAll (i : Ingestion) (vs : List Int) :
    (i.submitAll vs).1.length = vs.length := by
  induction vs generalizing i with
  | nil => rfl
  | cons v vs ih => exact congrArg Nat.succ (ih (i.submit v).2)

theorem accepted_attempt (i : Ingestion) (v : Int) :
    accepted (i.run [.attempt v]).1 =
      match (i.attempt v).1 with
      | some (.ok ()) => [v]
      | _ => [] := by
  rw [run_cons, step]
  rcases i.attempt v with ⟨_ | _ | _, j⟩ <;> rfl

theorem accepted_retry (i : Ingestion) (k : Nat) :
    accepted (i.run [.retry k]).1 =
      match i.waiting[k]?, (i.retry k).1 with
      | some v, some (.ok ()) => [v]
      | _, _ => [] := by
  cases hw : i.waiting[k]? with
  | none =>
    simp only [run_cons, step, hw]
    rfl
  | some v =>
    simp only [run_cons, step, hw]
    rcases i.retry k with ⟨_ | _ | _, j⟩ <;> rfl

end Ingestion

open Ingestion (admitted)

/-- Every value was accepted or came back. -/
theorem Service.length_admitted {vs : List Int} {rs : List (Except IngestError Unit)}
    (hl : rs.length = vs.length) : (admitted vs rs).length = rs.length - (refused rs).length := by
  have hsum : (admitted vs rs).length + (refused rs).length = rs.length := by
    induction rs generalizing vs with
    | nil => simp [admitted, refused]
    | cons answer rs ih =>
      cases vs with
      | nil => cases hl
      | cons v vs =>
        have hrest := ih (Nat.succ.inj hl)
        rw [admitted, refused] at hrest ⊢
        cases answer with
        | ok _ =>
          simp [Except.isOk, Except.toBool] at hrest ⊢
          omega
        | error e =>
          simp [Except.isOk, Except.toBool] at hrest ⊢
          omega
  omega

/-! ### Requests and responses -/

namespace Http

@[simp] theorem Response.status_measured (a : Response) : a.measured.status = a.status := by
  rw [measured]
  split <;> rfl

@[simp] theorem Response.body_measured (a : Response) : a.measured.body = a.body := by
  rw [measured]
  split <;> rfl

namespace Request
variable {q : Request} {call : Call}

/-- Events come with `POST`, everything else is read. -/
theorem method_of_call (h : q.call = .ok call) :
    (q.method = "POST" ∧ ∃ s, call = .submit s) ∨
      ((q.method = "GET" ∨ q.method = "HEAD") ∧ ∀ s, call ≠ .submit s) := by
  rw [Request.call] at h
  cases hroute : Route.ofPath? (Route.path q.target) with
  | none =>
    rw [hroute] at h
    cases h
  | some route =>
    rw [hroute] at h
    by_cases htakes : route.takes q.method
    · simp only [htakes, Bool.not_true, Bool.false_eq_true, if_false] at h
      cases route with
      | events =>
        rw [Route.takes, beq_iff_eq] at htakes
        rcases hs : submission q with _ | s
        · rw [hs] at h
          cases h
        · rw [hs] at h
          cases h
          exact Or.inl ⟨htakes, s, rfl⟩
      | node id =>
        simp only [Route.takes, Bool.or_eq_true, beq_iff_eq] at htakes
        change (nodeNumber id).map .status = .ok call at h
        rcases hn : nodeNumber id with _ | n
        · rw [hn] at h
          cases h
        · rw [hn] at h
          cases h
          exact Or.inr ⟨htakes, fun _ => Call.noConfusion⟩
      | _ =>
        simp only [Route.takes, Bool.or_eq_true, beq_iff_eq] at htakes
        cases h
        exact Or.inr ⟨htakes, fun _ => Call.noConfusion⟩
    · simp only [htakes, Bool.not_false, if_true] at h
      cases h

theorem isPreflight_of_call (h : q.call = .ok call) : isPreflight q = false := by
  rcases method_of_call h with ⟨hm, -⟩ | ⟨hm | hm, -⟩ <;> rw [isPreflight, hm] <;> decide

theorem posted?_of_read (h : q.method ≠ "POST") : q.posted? = none := by
  cases hp : q.posted? with
  | none => rfl
  | some b =>
    rw [posted?] at hp
    split at hp
    · cases hp
    · split at hp
      · rename_i s hcall
        rcases method_of_call hcall with ⟨hm, -⟩ | ⟨-, hno⟩
        · exact absurd hm h
        · exact absurd rfl (hno s)
      · cases hp

/-- The request is about the node with a number. -/
def Names (q : Request) (id : Nat) : Prop :=
  q.call = .ok (.status id) ∨ ∃ vs, q.call = .ok (.submit ⟨id, vs⟩)

end Request

end Http

namespace Service
variable {r : Service} {q : Http.Request} {call : Http.Call} {k : Nat} {l : Lane}

/-- A request that is understood is answered with what it asks; a `HEAD` request is spared the body. -/
theorem respond_of_call (h : q.call = .ok call) :
    (r.respond q).1.status = (r.answer call).1.status ∧
      (q.method ≠ "HEAD" → (r.respond q).1.body = (r.answer call).1.body) ∧
      (r.respond q).2 = (r.answer call).2 := by
  rw [respond, Http.Request.isPreflight_of_call h, h]
  simp only [Bool.false_eq_true, if_false]
  by_cases hm : q.method = "HEAD"
  · rw [if_pos hm]
    exact ⟨Http.Response.status_measured _, fun hne => absurd hm hne, trivial⟩
  · rw [if_neg hm]
    exact ⟨Http.Response.status_measured _, fun _ => Http.Response.body_measured _, trivial⟩

/-- Whoever reads leaves the program as it is. -/
theorem snd_respond_of_read (r : Service) (h : q.method ≠ "POST") : (r.respond q).2 = r := by
  rw [snd_respond, Http.Request.posted?_of_read h]

/-! ### Lanes by number -/

theorem Numbered.onLane_of_getElem? (hr : r.Numbered) (hk : r.lanes[k]? = some l) {α : Type}
    (f : Lane → α × Lane) :
    r.onLane k f = (some (f l).1, { r with lanes := r.lanes.set k (f l).2 }) := by
  have hp : r.position? k = some k := by
    rw [hr.position?_eq, if_pos (List.getElem?_eq_some_iff.1 hk).1]
  simp only [onLane, hp, hk]

theorem Numbered.onLane_of_le (hr : r.Numbered) {id : Nat} (h : r.lanes.length ≤ id) {α : Type}
    (f : Lane → α × Lane) : r.onLane id f = (none, r) := by
  have hp : r.position? id = none := by
    rw [hr.position?_eq, if_neg (Nat.not_lt.2 h)]
  simp only [onLane, hp]

theorem Numbered.fst_submit (hr : r.Numbered) (hk : r.lanes[k]? = some l) (vs : List Int) :
    (r.submit k vs).1 = some (l.ingestion.submitAll vs).1 := by
  rw [submit, hr.onLane_of_getElem? hk]

/-- A request about a node that there is not is turned away, and nothing else happens. -/
theorem Numbered.respond_of_le (hr : r.Numbered) {id : Nat} (h : r.lanes.length ≤ id)
    (hq : q.Names id) :
    (r.respond q).1.status = 404 ∧
      (q.method ≠ "HEAD" → (r.respond q).1.body = (unknownNode id).body) ∧
      (r.respond q).2 = r := by
  rcases hq with hcall | ⟨vs, hcall⟩
  · obtain ⟨hstatus, hbody, hend⟩ := respond_of_call (r := r) hcall
    have hnone : r.answer (.status id) = (unknownNode id, r) := by
      rw [answer, status?, hr.lane?_eq, List.getElem?_eq_none h]
      rfl
    rw [hnone] at hstatus hbody hend
    exact ⟨hstatus, hbody, hend⟩
  · obtain ⟨hstatus, hbody, hend⟩ := respond_of_call (r := r) hcall
    have hnone : r.answer (.submit ⟨id, vs⟩) = (unknownNode id, r) := by
      rw [answer, submit, hr.onLane_of_le h]
    rw [hnone] at hstatus hbody hend
    exact ⟨hstatus, hbody, hend⟩

/-! ### What goes through a lane -/

/-- The values that a step gets accepted for the node at a position, going by the answers to those
    who submit. -/
def accepts (r : Service) (k : Nat) : Step → List Int
  | .request q =>
    match q.posted? with
    | some b => if b.node = k then admitted b.values ((r.submit k b.values).1.getD []) else []
    | none => []
  | .submit id vs => if id = k then admitted vs ((r.submit k vs).1.getD []) else []
  | .attempt id v =>
    if id = k then
      match (r.attempt k v).1 with
      | some (some (.ok ())) => [v]
      | _ => []
    else []
  | .retry id j =>
    if id = k then
      match r.lanes[k]?.bind (·.ingestion.waiting[j]?), (r.retry k j).1 with
      | some v, some (some (.ok ())) => [v]
      | _, _ => []
    else []
  | _ => []

/-- All values that are accepted for the node at a position in a run, in their order. -/
def acceptedFor (r : Service) (k : Nat) : List Step → List Int
  | [] => []
  | s :: steps => r.accepts k s ++ (r.step s).acceptedFor k steps

/-- The steps of the ingestion at a position that make up one step. -/
def moves (r : Service) (k : Nat) (s : Step) : List Ingestion.Step :=
  match r.lanes[k]? with
  | some l => (r.order k s).steps l.ingestion
  | none => []

/-- The steps of the ingestion at a position that make up its shutdown. -/
def farewell (r : Service) (k : Nat) : List Ingestion.Step :=
  match r.lanes[k]? with
  | some l => l.ingestion.stopping
  | none => []

/-- All steps of the ingestion at a position, in a run and the shutdown after it. -/
def passage (r : Service) (k : Nat) : List Step → List Ingestion.Step
  | [] => r.farewell k
  | s :: steps => r.moves k s ++ (r.step s).passage k steps

/-- What a lane accepts in a step is what those who submitted were told. -/
theorem Numbered.accepted_moves (hr : r.Numbered) (hk : r.lanes[k]? = some l) (s : Step) :
    Ingestion.accepted (l.ingestion.run (r.moves k s)).1 = r.accepts k s := by
  have hsubmit (id : Nat) (vs : List Int) :
      Ingestion.accepted (l.ingestion.run ((r.aim id k (.submit vs)).steps l.ingestion)).1 =
        if id = k then admitted vs ((r.submit k vs).1.getD []) else [] := by
    rw [hr.aim_eq hk, hr.fst_submit hk]
    by_cases h : id = k
    · rw [if_pos h, if_pos h]
      exact l.ingestion.accepted_submitAll vs
    · rw [if_neg h, if_neg h]
      rfl
  rw [moves, hk]
  cases s with
  | request q =>
    simp only [order, accepts]
    cases q.posted? with
    | none => rfl
    | some b => exact hsubmit b.node b.values
  | submit id vs => exact hsubmit id vs
  | attempt id v =>
    simp only [order, accepts, hr.aim_eq hk, attempt, hr.onLane_of_getElem? hk]
    by_cases h : id = k
    · rw [if_pos h, if_pos h]
      refine (l.ingestion.accepted_attempt v).trans ?_
      rcases (l.ingestion.attempt v).1 with _ | _ | _ <;> rfl
    · rw [if_neg h, if_neg h]
      rfl
  | retry id j =>
    simp only [order, accepts, hr.aim_eq hk, retry, hr.onLane_of_getElem? hk]
    by_cases h : id = k
    · rw [if_pos h, if_pos h]
      refine (l.ingestion.accepted_retry j).trans ?_
      rw [hk, Option.bind_some]
      rcases l.ingestion.waiting[j]? with _ | v
      · rfl
      · rcases (l.ingestion.retry j).1 with _ | _ | _ <;> rfl
    · rw [if_neg h, if_neg h]
      rfl
  | leave id j =>
    simp only [order, accepts, hr.aim_eq hk]
    split <;> rfl
  | turn id =>
    simp only [order, accepts, hr.aim_eq hk]
    split
    · exact Ingestion.accepted_turns l.ingestion 1
    · rfl
  | settle => exact Ingestion.accepted_turns l.ingestion _
  | switch id on =>
    simp only [order, accepts, hr.aim_eq hk]
    split <;> rfl
  | reduce endings => rfl
  | cycle =>
    simp only [order, accepts]
    split
    · rfl
    · split
      · exact Ingestion.accepted_turns l.ingestion _
      · split
        · rfl
        · exact Ingestion.accepted_turns l.ingestion _

/-- What becomes of one lane: it goes through its passage, and what it accepts on the way is what those
    who submitted were told. -/
theorem Numbered.passage_eq (hr : r.Numbered) (hk : r.lanes[k]? = some l) (hl : l.producer = none)
    (steps : List Step) :
    ∃ l', (r.run steps).shutdown.lanes[k]? = some l' ∧
      l'.ingestion = (l.ingestion.run (r.passage k steps)).2 ∧ l'.ingestion.phase = .finished ∧
      Ingestion.accepted (l.ingestion.run (r.passage k steps)).1 = r.acceptedFor k steps := by
  induction steps generalizing r l with
  | nil =>
    refine ⟨l.stop, ?_, ?_, l.ingestion.phase_stop, ?_⟩
    · rw [run, List.foldl_nil, getElem?_shutdown, hk]
      rfl
    · rw [passage, farewell, hk]
      exact l.ingestion.stop_eq_run
    · rw [passage, farewell, hk]
      exact l.ingestion.accepted_stopping
  | cons s steps ih =>
    -- The lane is idle after the step as well, and goes on from where its moves have led it.
    obtain ⟨hrun, hidle⟩ := Lane.obey_of_idle hl (r.order k s)
    have hmoves : (r.order k s).steps l.ingestion = r.moves k s := by rw [moves, hk]
    have hnext : (r.step s).lanes[k]? = some (l.obey (r.order k s)) := by
      rw [getElem?_step, hk]
      rfl
    obtain ⟨l', hl', hend, hfinished, haccepted⟩ := ih (hr.step s) hnext hidle
    rw [hrun, hmoves] at hend haccepted
    refine ⟨l', hl', ?_, hfinished, ?_⟩
    · rw [passage, Ingestion.run_append]
      exact hend
    · rw [passage, Ingestion.run_append, Ingestion.accepted_append, haccepted,
        hr.accepted_moves hk]
      rfl

/-! ### From start to shutdown -/

/-- Nobody draws values for any lane. -/
def Idle (r : Service) : Prop := ∀ (k : Nat) (l : Lane), r.lanes[k]? = some l → l.producer = none

theorem Idle.step (hi : r.Idle) (s : Step) : (r.step s).Idle :=
  forall_lanes_step fun k l hl => (Lane.obey_of_idle (hi k l hl) _).2

/-- What every step keeps of a program with the given number of nodes and no producers. -/
structure Row (nodes : Nat) (r : Service) : Prop where
  numbered : r.Numbered
  idle : r.Idle
  length_eq : r.lanes.length = nodes

variable {nodes : Nat}

theorem Row.step (hr : r.Row nodes) (s : Step) : (r.step s).Row nodes :=
  ⟨hr.numbered.step s, hr.idle.step s, (r.length_step s).trans hr.length_eq⟩

theorem Row.run (hr : r.Row nodes) (steps : List Step) : (r.run steps).Row nodes :=
  List.foldlRecOn steps Service.step hr fun _ h s _ => h.step s

theorem Row.shutdown (hr : r.Row nodes) : r.shutdown.Row nodes := by
  refine ⟨hr.numbered.shutdown, ?_, r.length_shutdown.trans hr.length_eq⟩
  refine forall_lanes_shutdown fun k l hl => ?_
  rw [Lane.stop, Lane.stopProducer, hr.idle k l hl, Option.map_none]

/-- What is asked of a program, and what becomes of it, apart from the lanes that it is about. -/
structure Answered (nodes : Nat) (r : Service) : Prop where
  /-- A request about a node that there is not is turned away, and nothing happens. -/
  unknown : ∀ q id, nodes ≤ id → q.Names id → (r.respond q).1.status = 404 ∧
    (q.method ≠ "HEAD" → (r.respond q).1.body = (unknownNode id).body) ∧ (r.respond q).2 = r
  unknown_submit : ∀ id, nodes ≤ id →
    (∀ vs, r.submit id vs = (none, r)) ∧ (∀ v, r.attempt id v = (none, r)) ∧
      ∀ k, r.retry id k = (none, r) ∧ r.leave id k = r
  /-- Who posts events is told how many were accepted, and which were not. -/
  posted : ∀ q k vs, k < nodes → q.call = .ok (.submit ⟨k, vs⟩) → ∃ rs,
    r.accepts k (.request q) = admitted vs rs ∧ (r.respond q).1.status = 202 ∧
    (r.respond q).1.body = .json (.object [("accepted", .nat (admitted vs rs).length),
      ("rejected", .array ((refused rs).map .int))])
  read : ∀ q, q.method ≠ "POST" → (r.respond q).2 = r
  reduce : ∀ endings, (r.reduce endings).lanes = r.lanes
  /-- Waiting for a readout is at most waiting for the workers. -/
  cycle : r.cycle.2.lanes = r.lanes ∨ r.cycle.2.lanes = r.settle.lanes

theorem Idle.map_advance (hi : r.Idle) (time : Nat) :
    r.lanes.map (·.advance time) = r.settle.lanes := by
  refine List.map_congr_left fun l hl => ?_
  obtain ⟨k, hk⟩ := List.mem_iff_getElem?.1 hl
  simp only [Lane.advance, hi k l hk]

theorem Row.cycle (hr : r.Row nodes) :
    r.cycle.2.lanes = r.lanes ∨ r.cycle.2.lanes = r.settle.lanes := by
  rw [Service.cycle]
  cases r.ended with
  | true => exact Or.inl rfl
  | false =>
    cases r.loop.runs with
    | true => exact Or.inr (hr.idle.map_advance r.loop.due)
    | false =>
      cases r.started with
      | true => exact Or.inl rfl
      | false => exact Or.inr rfl

theorem Row.posted (hr : r.Row nodes) {vs : List Int} (hk : k < nodes)
    (hq : q.call = .ok (.submit ⟨k, vs⟩)) : ∃ rs,
    r.accepts k (.request q) = admitted vs rs ∧ (r.respond q).1.status = 202 ∧
    (r.respond q).1.body = .json (.object [("accepted", .nat (admitted vs rs).length),
      ("rejected", .array ((refused rs).map .int))]) := by
  obtain ⟨l, hl⟩ : ∃ l, r.lanes[k]? = some l := by
    rw [← hr.length_eq] at hk
    exact ⟨_, List.getElem?_eq_getElem hk⟩
  have hsubmit := hr.numbered.fst_submit hl vs
  have hlength := length_admitted (l.ingestion.length_submitAll vs)
  generalize (l.ingestion.submitAll vs).1 = rs at hsubmit hlength
  obtain ⟨hstatus, hbody, -⟩ := respond_of_call (r := r) hq
  have hpost : q.method ≠ "HEAD" := by
    rcases Http.Request.method_of_call hq with ⟨hm, -⟩ | ⟨-, hno⟩
    · rw [hm]
      decide
    · exact absurd rfl (hno _)
  refine ⟨rs, ?_, ?_⟩
  · rw [accepts, Http.Request.posted?, Http.Request.isPreflight_of_call hq, hq]
    simp only [Bool.false_eq_true, if_false, if_true, hsubmit, Option.getD_some]
  · rw [hstatus, hbody hpost, answer, hlength]
    generalize r.submit k vs = answer at hsubmit ⊢
    obtain ⟨_ | rs', r'⟩ := answer
    · cases hsubmit
    · cases hsubmit
      exact ⟨rfl, rfl⟩

theorem Row.answered (hr : r.Row nodes) : r.Answered nodes where
  unknown q id hid hq := hr.numbered.respond_of_le (hr.length_eq ▸ hid) hq
  unknown_submit id hid := by
    have hle : r.lanes.length ≤ id := hr.length_eq ▸ hid
    exact ⟨fun vs => hr.numbered.onLane_of_le hle _, fun v => hr.numbered.onLane_of_le hle _,
      fun k => ⟨hr.numbered.onLane_of_le hle _,
        congrArg Prod.snd (hr.numbered.onLane_of_le hle fun l => ((), l.obey (.leave k)))⟩⟩
  posted q k vs hk hq := hr.posted hk hq
  read q hq := r.snd_respond_of_read hq
  reduce endings := rfl
  cycle := hr.cycle

end Service

/-- What a node says about itself when these are its residents. -/
structure Status.Reports (s : Status) (id capacity : Nat) (residents : List Int) : Prop where
  node_eq : s.node = id
  total_eq : s.total = residents.sum
  count_eq : s.count = residents.length
  average_eq : s.average =
    if residents = [] then none
    else some (Float.ofInt residents.sum / Float.ofInt residents.length)
  windowLength_eq : s.windowLength = residents.length
  windowCapacity_eq : s.windowCapacity = capacity

theorem Node.Follows.reports {n : Node} {seen : Bool} (hn : n.Follows seen) :
    n.status.Reports n.id n.window.capacity n.window.residents := by
  have hmean : n.mean = ⟨n.window.residents.sum, n.window.residents.length⟩ := hn.getD_fetch
  refine ⟨rfl, ?_, ?_, ?_, rfl, rfl⟩
  · rw [status, hmean]
  · rw [status, hmean]
  · rw [status, hmean, Snapshot.average]
    cases n.window.residents with
    | nil => rfl
    | cons v vs =>
      have hne : ((v :: vs).length : Int) ≠ 0 := Int.natCast_ne_zero.2 (Nat.succ_ne_zero _)
      rw [if_neg hne, if_neg (List.cons_ne_nil v vs)]
      rfl

namespace Service
open Ingestion (batches taken)

/-- What has become of a lane by the end: it has handed over all of the `values`, and the window holds
    the last of what the node took. -/
structure Delivered (i : Ingestion) (steps : List Ingestion.Step) (values : List Int) (l : Lane) :
    Prop where
  ingestion_eq : l.ingestion = (i.run steps).2
  finished : l.ingestion.phase = .finished ∧ l.ingestion.queue = []
  handed_eq : (batches (i.run steps).1).flatten = values
  residents_eq : l.node.window.residents =
    (taken (i.run steps).1).flatten.rtake i.node.window.capacity

theorem delivered {c : Config} {h : 0 < c.windowCapacity} {clock : Clock}
    (hb : c.intake.excessive = false) {k : Nat} (hk : k < c.nodes) (steps : List Step) :
    ∃ l, ((launched c h clock none).run steps).shutdown.lanes[k]? = some l ∧
      Delivered (.ofCapacity k h c.intake) ((launched c h clock none).passage k steps)
        ((launched c h clock none).acceptedFor k steps) l ∧
      l.node.status.Reports k c.windowCapacity l.node.window.residents := by
  obtain ⟨l, hl, hend, hfinished, haccepted⟩ :=
    (numbered_launched c h clock none).passage_eq (getElem?_launched hk) rfl steps
  generalize (launched c h clock none).passage k steps = all at hend haccepted ⊢
  have hend : l.ingestion = ((Ingestion.ofCapacity k h c.intake).run all).2 := hend
  have hqueue : l.ingestion.queue = [] := by
    rw [hend] at hfinished ⊢
    exact Ingestion.queue_run_of_finished _ (fun _ => rfl) all hfinished
  have hfilled : Ingestion.Filled c.windowCapacity
      ((Ingestion.ofCapacity k h c.intake).run all).1
      ((Ingestion.ofCapacity k h c.intake).run all).2 := Ingestion.filled_run k h c.intake all
  refine ⟨l, hl, ⟨hend, ⟨hfinished, hqueue⟩, ?_, ?_⟩, ?_⟩
  · have hbalance := Ingestion.conserved_run (.ofCapacity k h c.intake) hb all
    rw [← hend, hqueue, List.append_nil] at hbalance
    exact hbalance.trans haccepted
  · rw [Lane.node, hend]
    exact hfilled.residents_eq
  · obtain ⟨seen, hfollows⟩ := hfilled.follows
    have hid : ((Ingestion.ofCapacity k h c.intake).run all).2.node.id = k :=
      Ingestion.id_run (.ofCapacity k h c.intake) all
    have hreports := hfollows.reports
    rw [hfilled.capacity_eq, hid] at hreports
    rw [Lane.node, hend]
    exact hreports

end Service

end WindowedMean
