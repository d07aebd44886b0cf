import WindowedMean.Proofs.GlobalMean

/-! A query while batches keep coming.

    Between the start of a query and its end the members answer one at a time, and between two
    answers any node may be handed a batch:

        start → batch → answer → batch → batch → expire → answer → end

    Each answer is a copy of the accumulator at its own moment, and the accumulator follows the
    window batch by batch. So every value that comes back is that of a window which the member
    really had while the query was under way, though no two members need have had theirs at the same
    moment. And the query is only a reader: the nodes go on as if nobody had asked. -/

namespace WindowedMean

namespace Cluster

/-! ### What a step leaves as it is -/

theorem ids_performAt (c : Cluster) (k : Nat) (op : Tracker.Op) :
    (c.performAt k op).2.ids = c.ids := by
  cases hm : c.members[k]? with
  | none =>
    rw [performAt, hm]
  | some m =>
    obtain ⟨hk, rfl⟩ := List.getElem?_eq_some_iff.1 hm
    rw [performAt, hm]
    change (c.members.set k _).map (·.node.id) = c.members.map (·.node.id)
    rw [List.map_set]
    refine List.ext_getElem? fun i => ?_
    by_cases hi : k = i
    · subst hi
      rw [List.getElem?_set_self (by rwa [List.length_map]), List.getElem?_map, hm]
      rfl
    · rw [List.getElem?_set_ne hi]

theorem ids_setReachable (c : Cluster) (id : Nat) (on : Bool) :
    (c.setReachable id on).2.ids = c.ids := by
  cases hp : c.position? id with
  | none =>
    rw [setReachable, hp]
  | some k =>
    rw [setReachable, hp]
    change (c.members.modify k _).map (·.node.id) = c.members.map (·.node.id)
    refine List.ext_getElem? fun i => ?_
    rw [List.getElem?_map, List.getElem?_modify, List.getElem?_map]
    cases c.members[i]? with
    | none => rfl
    | some m => split <;> rfl

theorem ids_run (c : Cluster) (steps : List Step) : (c.run steps).ids = c.ids := by
  induction steps generalizing c with
  | nil => rfl
  | cons s steps ih =>
    refine (ih (c.step s)).trans ?_
    cases s with
    | process k events => exact ids_performAt c k _
    | switch id on => exact ids_setReachable c id on

theorem size_run (c : Cluster) (steps : List Step) : (c.run steps).size = c.size := by
  have h := congrArg List.length (ids_run c steps)
  rwa [ids, ids, List.length_map, List.length_map] at h

theorem run_append (c : Cluster) (past later : List Step) :
    c.run (past ++ later) = (c.run past).run later :=
  List.foldl_append

/-! ### Replies read off the windows -/

/-- The reply that an ending brings, read off the windows; `seen` says which members have been
    handed a batch. -/
def reading (c : Cluster) (seen : Nat → Bool) : Ending → Option Reply
  | .answer k => c.ids[k]?.map fun id =>
      if seen k then .value id (Snapshot.ofEvents (c.residents k)) else .absent id
  | .expire k => c.ids[k]?.map fun id => .late id c.timeout

variable {c : Cluster} {seen : Nat → Bool}

theorem replyTo_eq_reading (hc : c.Follows seen) (e : Ending) :
    c.replyTo meanKey e = c.reading seen e := by
  cases e with
  | answer k =>
    rw [reading, ids, List.getElem?_map]
    cases hm : c.members[k]? with
    | none =>
      rw [replyTo, Ending.position, hm]
      rfl
    | some m => exact replyTo_answer_eq hc hm
  | expire k =>
    rw [reading, ids, List.getElem?_map, Option.map_map]
    rfl

/-- A reply that says that there is none comes from a wait that ran out; any other is an answer. -/
theorem reading_eq_some {e : Ending} {r : Reply} (h : c.reading seen e = some r)
    (hun : r.isUnreachable = false) :
    ∃ k id, e = .answer k ∧ c.ids[k]? = some id ∧
      r = if seen k then .value id (Snapshot.ofEvents (c.residents k)) else .absent id := by
  cases e with
  | answer k =>
    obtain ⟨id, hid, hr⟩ := Option.map_eq_some_iff.1 h
    exact ⟨k, id, rfl, hid, hr.symm⟩
  | expire k =>
    obtain ⟨id, -, rfl⟩ := Option.map_eq_some_iff.1 h
    cases hun

end Cluster

namespace FanOut

/-- What may come next while a query is under way: a step of the cluster, or the end of a wait. -/
inductive Turn where
  | step (s : Cluster.Step)
  | finish (e : Ending)
  deriving DecidableEq, Repr

/-- The step of the cluster in a turn. -/
def Turn.step? : Turn → Option Cluster.Step
  | .step s => some s
  | .finish _ => none

/-- The end of a wait in a turn. -/
def Turn.ending? : Turn → Option Ending
  | .step _ => none
  | .finish e => some e

/-- The steps of the cluster in a row of turns. -/
def steps (turns : List Turn) : List Cluster.Step := turns.filterMap Turn.step?

/-- The ends of waits in a row of turns. -/
def endings (turns : List Turn) : List Ending := turns.filterMap Turn.ending?

/-- Every end of a wait, with all the steps that the cluster had taken by then. -/
def moments (past : List Cluster.Step) : List Turn → List (List Cluster.Step × Ending)
  | [] => []
  | .step s :: turns => moments (past ++ [s]) turns
  | .finish e :: turns => (past, e) :: moments past turns

/-- One turn of a cluster and a query to it. -/
def turn (p : Cluster × FanOut) : Turn → Cluster × FanOut
  | .step s => (p.1.step s, p.2)
  | .finish e => (p.1, p.2.finish p.1 e)

/-- A query from its start on, and the cluster beside it. -/
def during (c : Cluster) (key : String) (turns : List Turn) : Cluster × FanOut :=
  turns.foldl turn (c, .start c key)

/-- The moment of an ending is after some of the turns, and before the others. -/
theorem split_of_mem_moments {turns : List Turn} {past past' : List Cluster.Step} {e : Ending}
    (h : (past', e) ∈ moments past turns) :
    ∃ earlier later, turns = earlier ++ .finish e :: later ∧ past' = past ++ steps earlier := by
  induction turns generalizing past with
  | nil => cases h
  | cons t turns ih =>
    cases t with
    | step s =>
      obtain ⟨earlier, later, rfl, rfl⟩ := ih h
      exact ⟨.step s :: earlier, later, rfl, List.append_assoc ..⟩
    | finish e' =>
      rcases List.mem_cons.1 h with heq | hlater
      · cases heq
        exact ⟨[], turns, rfl, (List.append_nil _).symm⟩
      · obtain ⟨earlier, later, rfl, rfl⟩ := ih hlater
        exact ⟨.finish e' :: earlier, later, rfl, rfl⟩

/-- The cluster takes its steps as it would without a query. -/
theorem foldl_turn_fst (turns : List Turn) (c : Cluster) (f : FanOut) :
    (turns.foldl turn (c, f)).1 = c.run (steps turns) := by
  induction turns generalizing c f with
  | nil => rfl
  | cons t turns ih =>
    cases t with
    | step s => exact ih (c.step s) f
    | finish e => exact ih c (f.finish c e)

/-- Where the waits of all pending members end once, each ending brings the reply of its own moment,
    and then nobody is pending. -/
theorem foldl_turn_snd {c₀ : Cluster} {turns : List Turn} {past : List Cluster.Step} {f : FanOut}
    (hp : ((endings turns).map Ending.position).Perm f.pending)
    (hin : ∀ k ∈ f.pending, k < c₀.size) :
    (turns.foldl turn (c₀.run past, f)).2 =
      ⟨f.key,
        f.replies ++ (moments past turns).filterMap fun m => (c₀.run m.1).replyTo f.key m.2, []⟩ := by
  induction turns generalizing past f with
  | nil =>
    obtain ⟨key, replies, pending⟩ := f
    obtain rfl : pending = [] := hp.symm.eq_nil
    rw [moments, List.filterMap_nil, List.append_nil]
    rfl
  | cons t turns ih =>
    cases t with
    | step s =>
      have hrun : (c₀.run past).step s = c₀.run (past ++ [s]) := (c₀.run_append past [s]).symm
      rw [List.foldl_cons, turn, hrun]
      exact ih hp hin
    | finish e =>
      have hmem : e.position ∈ f.pending := hp.subset (List.mem_cons_self ..)
      have hk : e.position < (c₀.run past).size := by
        rw [Cluster.size_run]
        exact hin _ hmem
      have hm := List.getElem?_eq_getElem hk
      have hreply : (moments past (.finish e :: turns)).filterMap
            (fun m => (c₀.run m.1).replyTo f.key m.2) =
          reply (c₀.run past) f.key (c₀.run past).members[e.position] e ::
            (moments past turns).filterMap fun m => (c₀.run m.1).replyTo f.key m.2 := by
        refine List.filterMap_cons_some ?_
        rw [Cluster.replyTo, hm, Option.map_some]
      have hp' : ((endings turns).map Ending.position).Perm (f.pending.erase e.position) :=
        (hp.trans (List.perm_cons_erase hmem)).cons_inv
      rw [List.foldl_cons, turn, finish_of_mem hmem hm,
        ih hp' fun k hk => hin k (List.mem_of_mem_erase hk), hreply, List.append_assoc]
      rfl

end FanOut

namespace Cluster
open FanOut (Turn during endings steps moments)

section
variable {nodes : List (Nat × Nat)} {timeout : Nat} {c₀ : Cluster} {before : List Step}
  {turns : List Turn}

/-- A query that has come to its end: each member that was not switched off is read at its own
    moment. -/
theorem snd_during (hstart : start nodes timeout = .ok c₀)
    (hp : ((endings turns).map Ending.position).Perm
      (FanOut.start (c₀.run before) meanKey).pending) :
    (during (c₀.run before) meanKey turns).2 =
      ⟨meanKey,
        (c₀.run before).off.map (fun m => .partitioned m.node.id) ++
          (moments before turns).filterMap fun m => (c₀.run m.1).reading (touched m.1) m.2, []⟩ := by
  have hreading (m : List Step × Ending) :
      (c₀.run m.1).reading (touched m.1) m.2 = (c₀.run m.1).replyTo meanKey m.2 :=
    (replyTo_eq_reading (follows_run_of_start hstart m.1) m.2).symm
  simp only [hreading]
  refine FanOut.foldl_turn_snd hp fun k hk => ?_
  rw [← size_run c₀ before]
  exact FanOut.lt_of_mem_pending hk

/-- A reply that does not say that there is none was read at some moment of the query. -/
theorem read_of_mem_replies (hstart : start nodes timeout = .ok c₀)
    (hp : ((endings turns).map Ending.position).Perm
      (FanOut.start (c₀.run before) meanKey).pending)
    {r : Reply} (hr : r ∈ (during (c₀.run before) meanKey turns).2.replies)
    (hun : r.isUnreachable = false) :
    ∃ earlier k later id, turns = earlier ++ .finish (.answer k) :: later ∧ c₀.ids[k]? = some id ∧
      r = if touched (before ++ steps earlier) k then
          .value id (Snapshot.ofEvents ((c₀.run (before ++ steps earlier)).residents k))
        else .absent id := by
  rw [snd_during hstart hp] at hr
  rcases List.mem_append.1 hr with hoff | hread
  · obtain ⟨m, -, rfl⟩ := List.mem_map.1 hoff
    cases hun
  · obtain ⟨⟨past, e⟩, hmem, he⟩ := List.mem_filterMap.1 hread
    obtain ⟨earlier, later, hturns, rfl⟩ := FanOut.split_of_mem_moments hmem
    obtain ⟨k, id, rfl, hid, hr⟩ := reading_eq_some he hun
    rw [ids_run] at hid
    exact ⟨earlier, k, later, id, hturns, hid, hr⟩

end

/-- A query to a cluster that is handed batches, and whose members are switched, before and while it
    is under way. Every value that comes back is the sum and the number of the residents that the
    member had at one moment of the query, between two batches; a member is absent only if it had
    not been handed any batch at its moment. The nodes end as they would have without the query. -/
theorem replies_interleaved {nodes : List (Nat × Nat)} {timeout : Nat} {c₀ : Cluster}
    (hstart : start nodes timeout = .ok c₀) (before : List Step) (turns : List Turn)
    (hp : ((endings turns).map Ending.position).Perm
      (FanOut.start (c₀.run before) meanKey).pending) :
    (during (c₀.run before) meanKey turns).2 =
      ⟨meanKey,
        (c₀.run before).off.map (fun m => .partitioned m.node.id) ++
          (moments before turns).filterMap fun m => (c₀.run m.1).reading (touched m.1) m.2, []⟩ ∧
    (∀ id s, .value id s ∈ (during (c₀.run before) meanKey turns).2.replies →
      ∃ earlier k later, turns = earlier ++ .finish (.answer k) :: later ∧ c₀.ids[k]? = some id ∧
        s = Snapshot.ofEvents ((c₀.run (before ++ steps earlier)).residents k)) ∧
    (∀ id, .absent id ∈ (during (c₀.run before) meanKey turns).2.replies →
      ∃ earlier k later, turns = earlier ++ .finish (.answer k) :: later ∧ c₀.ids[k]? = some id ∧
        touched (before ++ steps earlier) k = false) ∧
    (during (c₀.run before) meanKey turns).1 = c₀.run (before ++ steps turns) := by
  refine ⟨snd_during hstart hp, ?_, ?_, ?_⟩
  · intro id s hr
    obtain ⟨earlier, k, later, id', hturns, hid, hr'⟩ := read_of_mem_replies hstart hp hr rfl
    split at hr'
    · cases hr'
      exact ⟨earlier, k, later, hturns, hid, rfl⟩
    · cases hr'
  · intro id hr
    obtain ⟨earlier, k, later, id', hturns, hid, hr'⟩ := read_of_mem_replies hstart hp hr rfl
    split at hr'
    · cases hr'
    · rename_i hseen
      cases hr'
      exact ⟨earlier, k, later, hturns, hid, Bool.eq_false_iff.2 hseen⟩
  · rw [during, FanOut.foldl_turn_fst, run_append]

/-- The first member is read between two of its batches, when its window holds 6 and 7. The third has
    not been handed anything yet when it is read, the second is late and the last is switched off. -/
theorem replies_interleaved_of_four :
    ∃ c₀, start [(7, 2), (7, 1), (3, 4), (9, 2)] 50 = .ok c₀ ∧
      ∃ c, during (c₀.run [.process 0 [5, 6], .switch 9 false]) meanKey
          [.step (.process 0 [7]), .finish (.answer 0), .step (.process 0 [8, 9]),
            .finish (.answer 2), .step (.process 2 [greatest, 1]), .finish (.expire 1)] =
        (c, ⟨meanKey, [.partitioned 9, .value 7 ⟨13, 2⟩, .absent 3, .late 7 50], []⟩) ∧
      c = c₀.run [.process 0 [5, 6], .switch 9 false, .process 0 [7], .process 0 [8, 9],
        .process 2 [greatest, 1]] := by
  refine ⟨_, rfl, ?_⟩
  obtain ⟨hquery, -, -, hcluster⟩ := @replies_interleaved [(7, 2), (7, 1), (3, 4), (9, 2)] 50 _ rfl
    [.process 0 [5, 6], .switch 9 false]
    [.step (.process 0 [7]), .finish (.answer 0), .step (.process 0 [8, 9]), .finish (.answer 2),
      .step (.process 2 [greatest, 1]), .finish (.expire 1)] (by decide)
  exact ⟨_, Prod.ext rfl (hquery.trans rfl), hcluster⟩

end Cluster

end WindowedMean
