import Mathlib.Data.List.Perm.Basic
import WindowedMean.Cluster.FanOut

/-! What a query brings back if every wait ends once.

    Waits end in any order, and each ending takes its member off the pending ones. So if the members
    whose waits end are the pending ones, in whatever order, there is one reply for each member:
    those for the members that are switched off first, then the others as they come. -/

namespace WindowedMean

/-- The reply that an ending brings, if there is such a member. -/
def Cluster.replyTo (c : Cluster) (key : String) (e : Ending) : Option Reply :=
  c.members[e.position]?.map fun m => FanOut.reply c key m e

namespace FanOut
variable {c : Cluster} {f : FanOut}

theorem finish_of_mem {e : Ending} {m : Member} (hp : e.position ∈ f.pending)
    (hm : c.members[e.position]? = some m) :
    f.finish c e = { f with
      replies := f.replies ++ [reply c f.key m e]
      pending := f.pending.erase e.position } := by
  rw [finish, if_pos hp, hm]

/-- Where the waits of all pending members end once, each ending brings its reply, and then nobody is
    pending. -/
theorem foldl_finish {endings : List Ending}
    (hp : (endings.map Ending.position).Perm f.pending) (hin : ∀ k ∈ f.pending, k < c.size) :
    endings.foldl (finish c) f =
      ⟨f.key, f.replies ++ endings.filterMap (c.replyTo f.key), []⟩ := by
  induction endings generalizing f with
  | nil =>
    obtain ⟨key, replies, pending⟩ := f
    obtain rfl : pending = [] := hp.symm.eq_nil
    rw [List.filterMap_nil, List.append_nil]
    rfl
  | cons e endings ih =>
    have hmem : e.position ∈ f.pending := hp.subset (List.mem_cons_self ..)
    obtain ⟨m, hm⟩ : ∃ m, c.members[e.position]? = some m :=
      ⟨_, List.getElem?_eq_getElem (hin _ hmem)⟩
    have hreply : c.replyTo f.key e = some (reply c f.key m e) := by
      rw [Cluster.replyTo, hm, Option.map_some]
    have hp' : (endings.map Ending.position).Perm (f.pending.erase e.position) :=
      (hp.trans (List.perm_cons_erase hmem)).cons_inv
    rw [List.foldl_cons, finish_of_mem hmem hm, ih hp' fun k hk => hin k (List.mem_of_mem_erase hk),
      List.filterMap_cons_some hreply, List.append_assoc]
    rfl

theorem lt_of_mem_pending {key : String} {k : Nat} (hk : k ∈ (start c key).pending) : k < c.size :=
  List.mem_range.1 (List.mem_filter.1 hk).1

end FanOut

namespace Cluster
variable {c : Cluster}

/-- The members that are switched off. -/
def off (c : Cluster) : List Member := c.members.filter fun m => !m.reachable

/-- The members that are switched on, with their positions. -/
def on (c : Cluster) : List (Member × Nat) := c.members.zipIdx.filter (·.1.reachable)

theorem off_eq_map_fst (c : Cluster) :
    c.off = (c.members.zipIdx.filter (!·.1.reachable)).map Prod.fst := by
  conv_lhs => rw [off, ← List.zipIdx_map_fst 0 c.members, List.filter_map]
  rfl

/-- Every member is switched off or on. -/
theorem filter_append_on_perm (c : Cluster) :
    (c.members.zipIdx.filter (!·.1.reachable) ++ c.on).Perm c.members.zipIdx := by
  have hsplit := List.filter_append_perm (fun p : Member × Nat => !p.1.reachable) c.members.zipIdx
  simpa only [on, Bool.not_not] using hsplit

theorem getElem?_of_mem_on {m : Member} {k : Nat} (h : (m, k) ∈ c.on) :
    c.members[k]? = some m ∧ m.reachable = true := by
  obtain ⟨hmem, hon⟩ := List.mem_filter.1 h
  exact ⟨List.mem_zipIdx_iff_getElem?.1 hmem, hon⟩

theorem mem_map_snd_on (k : Nat) :
    k ∈ c.on.map Prod.snd ↔ ∃ m, c.members[k]? = some m ∧ m.reachable = true := by
  constructor
  · intro hk
    obtain ⟨⟨m, k'⟩, hmem, rfl⟩ := List.mem_map.1 hk
    exact ⟨m, getElem?_of_mem_on hmem⟩
  · rintro ⟨m, hm, hon⟩
    exact List.mem_map.2 ⟨(m, k), List.mem_filter.2 ⟨List.mem_zipIdx_iff_getElem?.2 hm, hon⟩, rfl⟩

theorem nodup_map_snd_on (c : Cluster) : (c.on.map Prod.snd).Nodup := by
  have hall : (c.members.zipIdx.map Prod.snd).Nodup := by
    rw [List.zipIdx_map_snd]
    exact List.nodup_range'
  exact hall.sublist (List.filter_sublist.map Prod.snd)

/-- Those who are switched on are those whom a query waits for. -/
theorem pending_perm (c : Cluster) (key : String) :
    (FanOut.start c key).pending.Perm (c.on.map Prod.snd) := by
  refine (List.perm_ext_iff_of_nodup (List.nodup_range.filter _) (nodup_map_snd_on c)).2 fun k => ?_
  rw [mem_map_snd_on, List.mem_filter, List.mem_range]
  cases hm : c.members[k]? with
  | none => simp
  | some m =>
    have hk : k < c.size := (List.getElem?_eq_some_iff.1 hm).1
    simp [hk]

theorem collect_eq {key : String} {endings : List Ending}
    (hp : (endings.map Ending.position).Perm (FanOut.start c key).pending) :
    c.collect key endings =
      c.off.map (fun m => .partitioned m.node.id) ++ endings.filterMap (c.replyTo key) :=
  congrArg FanOut.replies (FanOut.foldl_finish hp fun _ => FanOut.lt_of_mem_pending)

/-- Every member is pending or switched off. -/
theorem length_off_add_pending (c : Cluster) (key : String) :
    c.off.length + (FanOut.start c key).pending.length = c.size := by
  have hall := c.filter_append_on_perm.length_eq
  rw [List.length_append, List.length_zipIdx] at hall
  rw [off_eq_map_fst, List.length_map, (c.pending_perm key).length_eq, List.length_map]
  exact hall

end Cluster

end WindowedMean
