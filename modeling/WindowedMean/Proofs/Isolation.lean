import WindowedMean.Proofs.OneReply

/-! What a request to one member of a cluster is to the others.

    Of all that may be asked of a cluster, a request to a node changes one node, and a switch changes
    one member:

        request                   node               switch
        to a node, by number      first with it      —
        to a node, by position    the one there      —
        switch of a number        —                  first with it
        collect, reduce, status   —                  —

    So a row of requests has a column for each member, and all that becomes of the member is in its
    own column. Where members share a number, the first of them is the one that is looked up, and it
    is the same one that is switched. -/

namespace WindowedMean

/-- A member whose node was asked for something, or which was switched, or neither. -/
def Member.after (m : Member) (op? : Option Tracker.Op) (on? : Option Bool) : Member where
  node := op?.elim m.node fun op => (m.node.perform op).2
  reachable := on?.getD m.reachable

@[simp] theorem Member.after_none (m : Member) : m.after none none = m := rfl

namespace Cluster

/-- What may be asked of a cluster. A node is addressed by its number or by its position. -/
inductive Request where
  | byNumber (id : Nat) (op : Tracker.Op)
  | byPosition (k : Nat) (op : Tracker.Op)
  | switch (id : Nat) (on : Bool)
  | collect (key : String) (endings : List Ending)
  | reduce (key : String) (endings : List Ending)
  | statusOf (id : Nat)
  | statusAt (k : Nat)

/-- What a cluster answers. -/
inductive Response where
  | performed (a : Option Tracker.Answer)
  | switched (found : Bool)
  | collected (replies : List Reply)
  | reduced (r : Except ReduceError GlobalAverage)
  | status (s : Option Status)

/-- One request, answered. -/
def serve (c : Cluster) : Request → Response × Cluster
  | .byNumber id op => let (a, c') := c.perform id op; (.performed a, c')
  | .byPosition k op => let (a, c') := c.performAt k op; (.performed a, c')
  | .switch id on => let (found, c') := c.setReachable id on; (.switched found, c')
  | .collect key endings => (.collected (c.collect key endings), c)
  | .reduce key endings => (.reduced (Reduction.ofReplies (c.collect key endings)).result, c)
  | .statusOf id => (.status ((c.node? id).map Node.status), c)
  | .statusAt k => (.status (c.members[k]?.map (·.node.status)), c)

/-- The cluster after a row of requests. -/
def serveAll (c : Cluster) (reqs : List Request) : Cluster :=
  reqs.foldl (fun c r => (c.serve r).2) c

/-- The nodes, whether they answer or not. -/
def nodes (c : Cluster) : List Node := c.members.map (·.node)

namespace Request

/-- The request is for a node. -/
def isOp : Request → Bool
  | .byNumber _ _ => true
  | .byPosition _ _ => true
  | _ => false

/-- What the node at a position is asked for. -/
def opAt? (ids : List Nat) (k : Nat) : Request → Option Tracker.Op
  | .byNumber id op => if ids.idxOf? id = some k then some op else none
  | .byPosition j op => if j = k then some op else none
  | _ => none

/-- How the member at a position is switched. -/
def switchAt? (ids : List Nat) (k : Nat) : Request → Option Bool
  | .switch id on => if ids.idxOf? id = some k then some on else none
  | _ => none

/-- How a number is switched, whoever has it. -/
def switch? (id : Nat) : Request → Option Bool
  | .switch id' on => if id' = id then some on else none
  | _ => none

theorem opAt?_of_not_isOp {r : Request} (h : r.isOp = false) (ids : List Nat) (k : Nat) :
    r.opAt? ids k = none := by
  cases r with
  | byNumber id op => cases h
  | byPosition j op => cases h
  | _ => rfl

end Request

/-- How a number was switched last; never switched is on. -/
def lastSwitch (id : Nat) (reqs : List Request) : Bool :=
  (reqs.filterMap (Request.switch? id)).getLast?.getD true

/-- A member with its number is switched as the number was switched last if it is the first that has
    it, and is on otherwise. -/
def flag (ids : List Nat) (reqs : List Request) (k id : Nat) : Bool :=
  if id ∈ ids.take k then true else lastSwitch id reqs

variable {c : Cluster} {ids : List Nat} {reqs : List Request} {k : Nat}

/-! ### Who is looked up -/

theorem position?_eq_idxOf? (c : Cluster) (id : Nat) : c.position? id = c.ids.idxOf? id := by
  rw [ids, List.idxOf?, List.findIdx?_map]
  rfl

theorem node?_eq_bind (c : Cluster) (id : Nat) :
    c.node? id = (c.ids.idxOf? id).bind (c.nodes[·]?) := by
  rw [node?, List.find?_eq_bind_findIdx?_getElem?, Option.map_bind, ← position?_eq_idxOf?]
  simp only [nodes, List.getElem?_map]
  rfl

theorem setReachable_fst (c : Cluster) (id : Nat) (on : Bool) :
    (c.setReachable id on).1 = decide (id ∈ c.ids) := by
  rw [setReachable, position?_eq_idxOf?]
  cases hp : c.ids.idxOf? id with
  | none => simpa using List.idxOf?_eq_none_iff.1 hp
  | some k =>
    have hid : id ∈ c.ids := List.isSome_idxOf?.1 (by rw [hp]; rfl)
    simpa using hid

/-- The first member with a number is at the position before which the number does not occur. -/
theorem idxOf?_eq_some_iff_take {id : Nat} :
    ids.idxOf? id = some k ↔ ids[k]? = some id ∧ id ∉ ids.take k := by
  rw [List.idxOf?_eq_some_iff, List.mem_take_iff_getElem]
  constructor
  · rintro ⟨hk, hid, hfirst⟩
    refine ⟨by rw [List.getElem?_eq_getElem hk, hid], ?_⟩
    rintro ⟨j, hj, hsame⟩
    exact hfirst j (Nat.lt_of_lt_of_le hj (Nat.min_le_left ..)) hsame
  · rintro ⟨hid, hfirst⟩
    obtain ⟨hk, hid⟩ := List.getElem?_eq_some_iff.1 hid
    exact ⟨hk, hid, fun j hj hsame => hfirst ⟨j, Nat.lt_min.2 ⟨hj, hj.trans hk⟩, hsame⟩⟩

/-! ### One request -/

theorem getElem?_performAt (c : Cluster) (j : Nat) (op : Tracker.Op) (k : Nat) :
    (c.performAt j op).2.members[k]? =
      c.members[k]?.map (·.after (if j = k then some op else none) none) := by
  cases hj : c.members[j]? with
  | none =>
    rw [performAt, hj]
    by_cases hk : j = k
    · rw [← hk, hj, Option.map_none]
    · simp [hk]
  | some m =>
    rw [performAt, hj]
    change (c.members.set j { m with node := (m.node.perform op).2 })[k]? = _
    by_cases hk : j = k
    · subst hk
      rw [List.getElem?_set_self (List.getElem?_eq_some_iff.1 hj).1, hj, if_pos rfl]
      rfl
    · simp [List.getElem?_set_ne hk, hk]

theorem getElem?_setReachable (c : Cluster) (id : Nat) (on : Bool) (k : Nat) :
    (c.setReachable id on).2.members[k]? =
      c.members[k]?.map (·.after none (if c.ids.idxOf? id = some k then some on else none)) := by
  rw [setReachable, position?_eq_idxOf?]
  cases c.ids.idxOf? id with
  | none => simp
  | some j =>
    by_cases hk : j = k
    · simp [hk, Member.after]
    · simp [hk]

/-- All that a request does: a member's node may be asked for something, or the member switched. -/
theorem getElem?_serve (c : Cluster) (r : Request) (k : Nat) :
    (c.serve r).2.members[k]? =
      c.members[k]?.map (·.after (r.opAt? c.ids k) (r.switchAt? c.ids k)) := by
  cases r with
  | byNumber id op =>
    change (c.perform id op).2.members[k]? =
      c.members[k]?.map (·.after (if c.ids.idxOf? id = some k then some op else none) none)
    rw [perform, position?_eq_idxOf?]
    cases c.ids.idxOf? id with
    | none => simp
    | some j => simpa using c.getElem?_performAt j op k
  | byPosition j op => exact c.getElem?_performAt j op k
  | switch id on => exact c.getElem?_setReachable id on k
  | _ => simp [serve, Request.opAt?, Request.switchAt?]

theorem getElem?_nodes_serve (c : Cluster) (r : Request) (k : Nat) :
    (c.serve r).2.nodes[k]? =
      c.nodes[k]?.map fun n => (r.opAt? c.ids k).elim n fun op => (n.perform op).2 := by
  rw [nodes, List.getElem?_map, getElem?_serve, nodes, List.getElem?_map, Option.map_map,
    Option.map_map]
  rfl

theorem ids_serve (c : Cluster) (r : Request) : (c.serve r).2.ids = c.ids := by
  cases r with
  | byNumber id op =>
    change (c.perform id op).2.ids = c.ids
    rw [perform]
    split
    · rfl
    · exact ids_performAt c _ op
  | byPosition j op => exact ids_performAt c j op
  | switch id on => exact ids_setReachable c id on
  | _ => rfl

theorem timeout_performAt (c : Cluster) (k : Nat) (op : Tracker.Op) :
    (c.performAt k op).2.timeout = c.timeout := by
  rw [performAt]
  split <;> rfl

theorem timeout_setReachable (c : Cluster) (id : Nat) (on : Bool) :
    (c.setReachable id on).2.timeout = c.timeout := by
  rw [setReachable]
  split <;> rfl

theorem timeout_serve (c : Cluster) (r : Request) : (c.serve r).2.timeout = c.timeout := by
  cases r with
  | byNumber id op =>
    change (c.perform id op).2.timeout = c.timeout
    rw [perform]
    split
    · rfl
    · exact timeout_performAt c _ op
  | byPosition j op => exact timeout_performAt c j op
  | switch id on => exact timeout_setReachable c id on
  | _ => rfl

/-! ### A row of requests -/

theorem serveAll_concat (c : Cluster) (reqs : List Request) (r : Request) :
    c.serveAll (reqs ++ [r]) = ((c.serveAll reqs).serve r).2 := by
  rw [serveAll, List.foldl_append]
  rfl

theorem ids_serveAll (c : Cluster) (reqs : List Request) : (c.serveAll reqs).ids = c.ids := by
  induction reqs using List.reverseRecOn with
  | nil => rfl
  | append_singleton reqs r ih => rw [serveAll_concat, ids_serve, ih]

theorem timeout_serveAll (c : Cluster) (reqs : List Request) :
    (c.serveAll reqs).timeout = c.timeout := by
  induction reqs using List.reverseRecOn with
  | nil => rfl
  | append_singleton reqs r ih => rw [serveAll_concat, timeout_serve, ih]

/-- What a row of requests makes of a member is in its own column. -/
theorem getElem?_serveAll (c : Cluster) (reqs : List Request) (k : Nat) :
    (c.serveAll reqs).members[k]? = c.members[k]?.map fun m =>
      ⟨(reqs.filterMap (Request.opAt? c.ids k)).foldl (fun n op => (n.perform op).2) m.node,
        (reqs.filterMap (Request.switchAt? c.ids k)).getLast?.getD m.reachable⟩ := by
  induction reqs using List.reverseRecOn with
  | nil => simp [serveAll]
  | append_singleton reqs r ih =>
    rw [serveAll_concat, getElem?_serve, ids_serveAll, ih, Option.map_map]
    refine congrArg (Option.map · _) (funext fun m => Member.ext ?_ ?_)
    · rw [List.filterMap_append, List.foldl_append]
      cases hop : r.opAt? c.ids k with
      | none => simp [Member.after, hop]
      | some op => simp [Member.after, hop]
    · rw [List.filterMap_append]
      cases hon : r.switchAt? c.ids k with
      | none => simp [Member.after, hon]
      | some on => simp [Member.after, hon]

/-- Only requests to nodes count for the nodes. -/
theorem nodes_serveAll_eq {more : List Request}
    (h : more.filter Request.isOp = reqs.filter Request.isOp) :
    (c.serveAll more).nodes = (c.serveAll reqs).nodes := by
  have hops (k : Nat) (row : List Request) :
      (row.filter Request.isOp).filterMap (Request.opAt? c.ids k) =
        row.filterMap (Request.opAt? c.ids k) := by
    rw [List.filterMap_filter]
    refine List.filterMap_congr fun r _ => ?_
    cases hr : r.isOp with
    | true => rfl
    | false => exact (Request.opAt?_of_not_isOp hr c.ids k).symm
  refine List.ext_getElem? fun k => ?_
  simp only [nodes, List.getElem?_map, getElem?_serveAll, Option.map_map, Function.comp_def,
    ← hops k more, h, hops]

/-- A switch of a number is one of the first member that has it, and of no other. -/
theorem filterMap_switchAt? {id : Nat} (hk : ids[k]? = some id) (reqs : List Request) :
    reqs.filterMap (Request.switchAt? ids k) =
      if id ∈ ids.take k then [] else reqs.filterMap (Request.switch? id) := by
  have hone (r : Request) :
      r.switchAt? ids k = if id ∈ ids.take k then none else r.switch? id := by
    cases r with
    | switch id' on =>
      change (if ids.idxOf? id' = some k then some on else none) =
        if id ∈ ids.take k then none else if id' = id then some on else none
      by_cases hfirst : id ∈ ids.take k
      · rw [if_pos hfirst, if_neg]
        rintro hid'
        obtain ⟨hk', hnot⟩ := idxOf?_eq_some_iff_take.1 hid'
        obtain rfl : id' = id := Option.some.inj (hk'.symm.trans hk)
        exact hnot hfirst
      · rw [if_neg hfirst]
        refine ite_congr (propext ?_) (fun _ => rfl) fun _ => rfl
        rw [idxOf?_eq_some_iff_take, hk]
        constructor
        · rintro ⟨hid, -⟩
          exact (Option.some.inj hid).symm
        · rintro rfl
          exact ⟨rfl, hfirst⟩
    | _ => simp [Request.switchAt?, Request.switch?]
  rw [show Request.switchAt? ids k = _ from funext hone]
  split
  · exact List.filterMap_eq_nil_iff.2 fun _ _ => rfl
  · rfl

/-! ### From a cluster that is switched on -/

/-- A cluster of the given nodes, all of them switched on at first, after a row of requests. -/
def after (start : List Node) (timeout : Nat) (reqs : List Request) : Cluster :=
  (ofNodes start timeout).serveAll reqs

/-- Those who are switched on, each once and in some order. -/
structure Awaits (c : Cluster) (order : List Nat) : Prop where
  nodup : order.Nodup
  mem_iff : ∀ k, k ∈ order ↔ ∃ m, c.members[k]? = some m ∧ m.reachable = true

theorem awaits_on (c : Cluster) : c.Awaits (c.on.map Prod.snd) :=
  ⟨nodup_map_snd_on c, mem_map_snd_on⟩

/-- What a query brings, read off the nodes and the last switches. -/
def dues (c : Cluster) (reqs : List Request) (key : String) (late : Nat → Bool) : List Reply :=
  c.nodes.mapIdx fun k n =>
    if flag c.ids reqs k n.id = false then .partitioned n.id
    else if late k = true then .late n.id c.timeout
    else .ofNode n key

/-- What holds of a cluster of the given nodes after a row of requests. -/
structure Isolated (start : List Node) (timeout : Nat) (reqs : List Request) (c : Cluster) :
    Prop where
  ids_eq : c.ids = start.map (·.id)
  timeout_eq : c.timeout = timeout
  /-- Each node is what the requests for it have made of it, one after the other. -/
  node_eq : ∀ k : Nat, c.nodes[k]? = start[k]?.map fun n =>
    (reqs.filterMap (Request.opAt? c.ids k)).foldl (fun n op => (n.perform op).2) n
  /-- A node answers what it is asked for next, and no other node changes. -/
  op : ∀ r k op n, Request.opAt? c.ids k r = some op → c.nodes[k]? = some n →
    (c.serve r).1 = .performed (some (n.perform op).1) ∧
      (c.serve r).2.nodes = c.nodes.set k (n.perform op).2
  /-- Whoever only switches a member or reads changes no node. -/
  other : ∀ r, Request.isOp r = false → (c.serve r).2.nodes = c.nodes
  /-- It makes no difference to the nodes where such requests are put in or taken out. -/
  inserted : ∀ more : List Request, more.filter Request.isOp = reqs.filter Request.isOp →
    (after start timeout more).nodes = c.nodes
  /-- Of those who share a number it is the first that is looked up. -/
  position : ∀ id k, c.position? id = some k ↔ c.ids[k]? = some id ∧ id ∉ c.ids.take k
  node : ∀ id, c.node? id = (c.position? id).bind (c.nodes[·]?)
  switched : ∀ id on, (c.serve (.switch id on)).1 = .switched (decide (id ∈ c.ids))
  /-- The first is as the number was switched last, and all others are on. -/
  members_eq : c.members = c.nodes.mapIdx fun k n => ⟨n, flag c.ids reqs k n.id⟩
  awaits : ∃ order, c.Awaits order
  replies : ∀ key late order, c.Awaits order →
    (c.collect key (order.map (.ofLate late))).Perm (c.dues reqs key late)
  /-- After another row of requests a query brings the same if the same is stored on the nodes and
      the numbers were switched the same last. -/
  same_replies : ∀ more key late order order',
    (after start timeout more).nodes.map (·.fetch key) = c.nodes.map (·.fetch key) →
    (∀ id ∈ c.ids, lastSwitch id more = lastSwitch id reqs) →
    c.Awaits order → (after start timeout more).Awaits order' →
    ((after start timeout more).collect key (order'.map (.ofLate late))).Perm
      (c.collect key (order.map (.ofLate late)))

section
variable {start : List Node} {timeout : Nat} {n : Node}

theorem ids_after : (after start timeout reqs).ids = start.map (·.id) := by
  rw [after, ids_serveAll, ids, ofNodes, List.map_map]
  rfl

theorem timeout_after : (after start timeout reqs).timeout = timeout := timeout_serveAll _ reqs

theorem map_id_nodes (c : Cluster) : c.nodes.map (·.id) = c.ids := by
  rw [nodes, List.map_map, ids]
  rfl

theorem getElem?_after (k : Nat) :
    (after start timeout reqs).members[k]? = start[k]?.map fun n =>
      ⟨(reqs.filterMap (Request.opAt? (start.map (·.id)) k)).foldl (fun n op => (n.perform op).2) n,
        flag (start.map (·.id)) reqs k n.id⟩ := by
  have hids : (ofNodes start timeout).ids = start.map (·.id) := by
    rw [ids, ofNodes, List.map_map]
    rfl
  rw [after, getElem?_serveAll, hids, ofNodes, List.getElem?_map, Option.map_map]
  cases hn : start[k]? with
  | none => rfl
  | some n =>
    have hk : (start.map (·.id))[k]? = some n.id := by rw [List.getElem?_map, hn, Option.map_some]
    refine congrArg some (Member.ext rfl ?_)
    change (reqs.filterMap (Request.switchAt? _ k)).getLast?.getD true = flag _ reqs k n.id
    rw [filterMap_switchAt? hk, flag, lastSwitch]
    split <;> rfl

theorem getElem?_nodes_after (k : Nat) :
    (after start timeout reqs).nodes[k]? = start[k]?.map fun n =>
      (reqs.filterMap (Request.opAt? (start.map (·.id)) k)).foldl (fun n op => (n.perform op).2)
        n := by
  rw [nodes, List.getElem?_map, getElem?_after, Option.map_map]
  rfl

/-- Requests do not change the number of a node. -/
theorem id_foldl_perform (ops : List Tracker.Op) (n : Node) :
    (ops.foldl (fun n op => (n.perform op).2) n).id = n.id := by
  induction ops generalizing n with
  | nil => rfl
  | cons op ops ih => exact ih (n.perform op).2

theorem members_after :
    (after start timeout reqs).members = (after start timeout reqs).nodes.mapIdx fun k n =>
      ⟨n, flag (start.map (·.id)) reqs k n.id⟩ := by
  refine List.ext_getElem? fun k => ?_
  rw [List.getElem?_mapIdx, getElem?_nodes_after, getElem?_after, Option.map_map]
  refine congrArg (Option.map · _) (funext fun n => ?_)
  simp only [Function.comp, id_foldl_perform]

theorem collect_perm_dues (key : String) (late : Nat → Bool) {order : List Nat}
    (h : (after start timeout reqs).Awaits order) :
    ((after start timeout reqs).collect key (order.map (.ofLate late))).Perm
      ((after start timeout reqs).dues reqs key late) := by
  have hp := perm_on h.nodup h.mem_iff
  have howed : ((after start timeout reqs).collect key (order.map (.ofLate late))).Perm
      ((after start timeout reqs).members.mapIdx ((after start timeout reqs).owed key late)) :=
    (List.Perm.of_eq (collect_ofLate hp)).trans (owed_perm_mapIdx hp)
  refine howed.trans (List.Perm.of_eq ?_)
  rw [members_after, dues, List.mapIdx_mapIdx, ids_after]
  rfl

theorem ofNode_eq {n n' : Node} {key : String} (hid : n.id = n'.id)
    (hfetch : n.fetch key = n'.fetch key) : Reply.ofNode n key = .ofNode n' key := by
  rw [Reply.ofNode, Reply.ofNode, hfetch, hid]

theorem dues_eq {c c' : Cluster} {reqs' : List Request} {key : String} (hids : c'.ids = c.ids)
    (htimeout : c'.timeout = c.timeout)
    (hfetch : c'.nodes.map (·.fetch key) = c.nodes.map (·.fetch key))
    (hlast : ∀ id ∈ c.ids, lastSwitch id reqs' = lastSwitch id reqs) (late : Nat → Bool) :
    c'.dues reqs' key late = c.dues reqs key late := by
  refine List.ext_getElem? fun k => ?_
  rw [dues, dues, List.getElem?_mapIdx, List.getElem?_mapIdx, hids, htimeout]
  have hfetch := congrArg (·[k]?) hfetch
  have hid : (c'.nodes.map (·.id))[k]? = (c.nodes.map (·.id))[k]? := by
    rw [map_id_nodes, map_id_nodes, hids]
  simp only [List.getElem?_map] at hfetch hid
  cases hn : c.nodes[k]? with
  | none =>
    rw [hn] at hid
    rw [Option.map_eq_none_iff.1 hid]
    rfl
  | some n =>
    obtain ⟨n', hn', hid'⟩ := Option.map_eq_some_iff.1 (hid.trans (by rw [hn, Option.map_some]))
    rw [hn, hn'] at hfetch
    have hmem : n.id ∈ c.ids := by
      rw [← map_id_nodes]
      exact List.mem_map_of_mem (List.mem_of_getElem? hn)
    rw [hn', Option.map_some, Option.map_some, hid', flag, flag, hlast n.id hmem,
      ofNode_eq hid' (Option.some.inj hfetch)]

theorem opAt?_of_ne {r : Request} {op : Tracker.Op} (h : r.opAt? ids k = some op) {j : Nat}
    (hj : k ≠ j) : r.opAt? ids j = none := by
  cases r with
  | byNumber id op' =>
    rw [Request.opAt?] at h ⊢
    split at h
    · rename_i hk
      rw [hk, if_neg (by simpa using hj)]
    · cases h
  | byPosition i op' =>
    rw [Request.opAt?] at h ⊢
    split at h
    · rename_i hk
      rw [hk, if_neg hj]
    · cases h
  | _ => rfl

theorem serve_of_opAt? {r : Request} {op : Tracker.Op} (h : r.opAt? c.ids k = some op)
    (hn : c.nodes[k]? = some n) :
    (c.serve r).1 = .performed (some (n.perform op).1) ∧
      (c.serve r).2.nodes = c.nodes.set k (n.perform op).2 := by
  constructor
  · obtain ⟨m, hm, rfl⟩ : ∃ m, c.members[k]? = some m ∧ m.node = n := by
      rwa [nodes, List.getElem?_map, Option.map_eq_some_iff] at hn
    have hat : (c.performAt k op).1 = some (m.node.perform op).1 := by rw [performAt, hm]
    cases r with
    | byNumber id op' =>
      rw [Request.opAt?] at h
      split at h
      · rename_i hk
        cases h
        change Response.performed (c.perform id op).1 = _
        rw [perform, position?_eq_idxOf?, hk]
        exact congrArg Response.performed hat
      · cases h
    | byPosition i op' =>
      rw [Request.opAt?] at h
      split at h
      · rename_i hk
        cases h
        rw [hk]
        exact congrArg Response.performed hat
      · cases h
    | _ => cases h
  · refine List.ext_getElem? fun j => ?_
    rw [getElem?_nodes_serve]
    by_cases hj : k = j
    · subst hj
      rw [List.getElem?_set_self (List.getElem?_eq_some_iff.1 hn).1, hn, h]
      rfl
    · rw [List.getElem?_set_ne hj, opAt?_of_ne h hj]
      exact congrFun Option.map_id _

theorem nodes_serve_of_not_isOp {r : Request} (h : r.isOp = false) :
    (c.serve r).2.nodes = c.nodes := by
  refine List.ext_getElem? fun k => ?_
  rw [getElem?_nodes_serve, Request.opAt?_of_not_isOp h]
  exact congrFun Option.map_id _

end

/-- A row of requests to a cluster that was switched on: what becomes of a node is up to the requests
    for that node, and what a query brings is up to the nodes and to the last switches. -/
theorem isolated (start : List Node) (timeout : Nat) (reqs : List Request) :
    Isolated start timeout reqs (after start timeout reqs) where
  ids_eq := ids_after
  timeout_eq := timeout_after
  node_eq k := by rw [ids_after, getElem?_nodes_after]
  op r k op n hop hn := serve_of_opAt? hop hn
  other r hr := nodes_serve_of_not_isOp hr
  inserted more h := nodes_serveAll_eq h
  position id k := by rw [position?_eq_idxOf?, idxOf?_eq_some_iff_take]
  node id := by rw [node?_eq_bind, position?_eq_idxOf?]
  switched id on := congrArg Response.switched (setReachable_fst _ id on)
  members_eq := by rw [ids_after, members_after]
  awaits := ⟨_, awaits_on _⟩
  replies key late order h := collect_perm_dues key late h
  same_replies more key late order order' hfetch hlast h h' := by
    have hdues := dues_eq (ids_after.trans ids_after.symm) (timeout_after.trans timeout_after.symm)
      hfetch hlast late
    exact (collect_perm_dues key late h').trans (hdues ▸ (collect_perm_dues key late h).symm)

/-- Two nodes share the number 7. The first is looked up and is switched off, the second still
    answers. -/
example :
    (after [.ofWindow 7 (.empty 2 Nat.two_pos), .ofWindow 7 (.empty 1 Nat.one_pos)] 50
        [.byNumber 7 (.process [5, 6]), .switch 7 false, .byPosition 1 (.process [8])]).collect
      meanKey [.answer 1] = [.partitioned 7, .value 7 ⟨8, 1⟩] := by decide

end Cluster

end WindowedMean
