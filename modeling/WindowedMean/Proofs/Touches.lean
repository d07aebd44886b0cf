import Mathlib.Data.Finset.Card
import WindowedMean.Proofs.Bindings

/-! What a row of single steps leaves behind in a registry.

    Four things happen to a registry at one stroke, whoever does them:

        look     what is bound to a key, if anything is
        make     a new accumulator, bound to nothing
        bind     a vacant key is bound; for any other key its resident comes back
        add      a pair goes into an accumulator, or is refused

    `Log` sets a registry against the row of all steps that led to it. A key is bound by the first
    step that tries, and what a bound accumulator holds is what it was made with and all that has
    been added to it since. -/

namespace WindowedMean

namespace Registry

/-- A single step. -/
inductive Touch where
  | look (key : String)
  | make (s : Snapshot)
  | bind (key : String) (h : Handle)
  | add (h : Handle) (d : Snapshot)
  deriving DecidableEq, Repr

/-- A single step, answered. -/
inductive Touched where
  | looked (key : String) (r : Option Handle)
  | made (h : Handle) (s : Snapshot)
  | bound (key : String) (r : Option Handle)
  | added (h : Handle) (d : Snapshot) (r : Except AverageError Unit)

/-- One step. -/
def touch (r : Registry) : Touch → Touched × Registry
  | .look key => (.looked key (r.get? key), r)
  | .make s => (.made (r.fresh s).1 s, (r.fresh s).2)
  | .bind key h => (.bound key (r.putIfAbsent key h).1, (r.putIfAbsent key h).2)
  | .add h d =>
    match r.add h d with
    | .ok r' => (.added h d (.ok ()), r')
    | .error e => (.added h d (.error e), r)

/-- The accumulator that a step is aimed at exists. -/
def Names (r : Registry) : Touch → Prop
  | .bind _ h => r.accumulators.Has h
  | .add h _ => r.accumulators.Has h
  | _ => True

namespace Touched

/-- The answer to a step that tried to bind a key. -/
def binds (key : String) : Touched → List (Option Handle)
  | .bound k r => if k = key then [r] else []
  | _ => []

/-- The key that a step tried to bind. -/
def keys : Touched → List String
  | .bound k _ => [k]
  | _ => []

/-- The accumulator that a step found under a key. -/
def found (key : String) : Touched → List Handle
  | .looked k r => if k = key then r.toList else []
  | .bound k r => if k = key then r.toList else []
  | _ => []

/-- What an accumulator was made with. -/
def starts (h : Handle) : Touched → List Snapshot
  | .made h' s => if h' = h then [s] else []
  | _ => []

/-- What was added to an accumulator. -/
def gains (h : Handle) : Touched → List Snapshot
  | .added h' d (.ok ()) => if h' = h then [d] else []
  | _ => []

end Touched

/-- The answers to all steps that tried to bind a key. -/
def binds (key : String) (es : List Touched) : List (Option Handle) := es.flatMap (·.binds key)

/-- The keys that steps tried to bind. -/
def boundKeys (es : List Touched) : List String := es.flatMap Touched.keys

/-- The accumulators that steps found under a key. -/
def found (key : String) (es : List Touched) : List Handle := es.flatMap (·.found key)

/-- What an accumulator was made with, each time it was made. -/
def starts (h : Handle) (es : List Touched) : List Snapshot := es.flatMap (·.starts h)

/-- All that was added to an accumulator. -/
def gains (h : Handle) (es : List Touched) : List Snapshot := es.flatMap (·.gains h)

section
variable (key : String) (h : Handle) (es : List Touched) (e : Touched)

@[simp] theorem binds_concat : binds key (es ++ [e]) = binds key es ++ e.binds key := by
  simp [binds]

@[simp] theorem found_concat : found key (es ++ [e]) = found key es ++ e.found key := by
  simp [found]

@[simp] theorem starts_concat : starts h (es ++ [e]) = starts h es ++ e.starts h := by
  simp [starts]

@[simp] theorem gains_concat : gains h (es ++ [e]) = gains h es ++ e.gains h := by
  simp [gains]

end

variable {r : Registry} {t : Touch} {es : List Touched}

/-! ### What one step does -/

theorem touch_add_of_inRange {h : Handle} {d : Snapshot} (hd : (r.state h + d).InRange) :
    r.touch (.add h d) = (.added h d (.ok ()), r.write h (r.state h + d)) := by
  simp only [touch, add_of_inRange hd]

theorem touch_add_of_not_inRange {h : Handle} {d : Snapshot} (hd : ¬ (r.state h + d).InRange) :
    r.touch (.add h d) = (.added h d (.error .overflow), r) := by
  simp only [touch, add_of_not_inRange hd]

theorem accumulators_putIfAbsent (r : Registry) (key : String) (h : Handle) :
    (r.putIfAbsent key h).2.accumulators = r.accumulators := by
  cases hg : r.get? key with
  | some resident => rw [putIfAbsent_of_get? hg]
  | none => rw [putIfAbsent_of_get?_none hg]

/-- A key that a step does not bind reads as before. One that it binds had been vacant, or keeps what
    it had. -/
theorem get?_touch (r : Registry) (t : Touch) (key : String) :
    ((r.touch t).1.binds key = [] ∧ (r.touch t).2.get? key = r.get? key) ∨
    ∃ h, t = .bind key h ∧ (r.touch t).1.binds key = [r.get? key] ∧
      (r.touch t).2.get? key = some ((r.get? key).getD h) := by
  cases t with
  | look k => exact Or.inl ⟨rfl, rfl⟩
  | make s => exact Or.inl ⟨rfl, rfl⟩
  | add h d =>
    by_cases hd : (r.state h + d).InRange
    · rw [touch_add_of_inRange hd]
      exact Or.inl ⟨rfl, rfl⟩
    · rw [touch_add_of_not_inRange hd]
      exact Or.inl ⟨rfl, rfl⟩
  | bind k h =>
    by_cases hk : k = key
    · subst hk
      refine Or.inr ⟨h, rfl, ?_⟩
      cases hg : r.get? k with
      | some resident =>
        simp only [touch, putIfAbsent_of_get? hg, Touched.binds, if_pos]
        exact ⟨trivial, hg⟩
      | none =>
        refine ⟨?_, (get?_putIfAbsent hg k).trans (if_pos rfl)⟩
        simp only [touch, putIfAbsent_of_get?_none hg, Touched.binds, if_pos]
    · refine Or.inl ⟨?_, ?_⟩
      · simp only [touch, Touched.binds, if_neg hk]
      · cases hg : r.get? k with
        | some resident => simp only [touch, putIfAbsent_of_get? hg]
        | none =>
          simp only [touch, get?_putIfAbsent hg]
          rw [if_neg (Ne.symm hk)]

/-- A key once bound stays bound to the same accumulator. -/
theorem get?_touch_of_some {key : String} {h : Handle} (hg : r.get? key = some h) (t : Touch) :
    (r.touch t).2.get? key = some h := by
  rcases get?_touch r t key with ⟨-, hsame⟩ | ⟨h', -, -, hnew⟩
  · rw [hsame, hg]
  · rw [hnew, hg, Option.getD_some]

/-- What a step finds under a key is bound to it, before and after. -/
theorem get?_of_found {key : String} {h : Handle} (hf : h ∈ (r.touch t).1.found key) :
    r.get? key = some h := by
  cases t with
  | look k =>
    simp only [touch, Touched.found] at hf
    split at hf
    · rename_i hk
      exact hk ▸ Option.mem_toList.1 hf
    · cases hf
  | make s => cases hf
  | add h' d =>
    by_cases hd : (r.state h' + d).InRange
    · rw [touch_add_of_inRange hd] at hf
      cases hf
    · rw [touch_add_of_not_inRange hd] at hf
      cases hf
  | bind k h' =>
    simp only [touch, Touched.found] at hf
    split at hf
    · rename_i hk
      subst hk
      cases hg : r.get? k with
      | some resident =>
        rw [putIfAbsent_of_get? hg] at hf
        exact Option.mem_toList.1 hf
      | none =>
        rw [putIfAbsent_of_get?_none hg] at hf
        cases hf
    · cases hf

/-- No key is bound twice. -/
theorem nodup_touch (hn : (r.entries.map Prod.fst).Nodup) (t : Touch) :
    ((r.touch t).2.entries.map Prod.fst).Nodup := by
  cases t with
  | look k => exact hn
  | make s => exact hn
  | add h d =>
    by_cases hd : (r.state h + d).InRange
    · rw [touch_add_of_inRange hd]
      exact hn
    · rw [touch_add_of_not_inRange hd]
      exact hn
  | bind k h =>
    cases hg : r.get? k with
    | some resident =>
      simp only [touch, putIfAbsent_of_get? hg]
      exact hn
    | none =>
      have hfree : k ∉ r.entries.map Prod.fst := by
        intro hk
        obtain ⟨p, hp, rfl⟩ := List.mem_map.1 hk
        have hne := List.lookup_eq_none_iff.1 hg p hp
        simp at hne
      simp only [touch, putIfAbsent_of_get?_none hg, List.map_append, List.map_cons, List.map_nil]
      exact List.nodup_append.2 ⟨hn, List.nodup_singleton k, by
        intro a ha b hb
        rw [List.mem_singleton.1 hb]
        rintro rfl
        exact hfree ha⟩

/-- An accumulator that exists goes on to exist, is not made again, and holds what it held and what
    the step added to it. -/
theorem state_touch {h : Handle} (hh : r.accumulators.Has h) (t : Touch) :
    (r.touch t).2.accumulators.Has h ∧ (r.touch t).1.starts h = [] ∧
      (r.touch t).2.state h = r.state h + ((r.touch t).1.gains h).sum := by
  cases t with
  | look k => exact ⟨hh, rfl, (add_zero _).symm⟩
  | make s =>
    have hne : (r.fresh s).1 ≠ h := by
      rintro rfl
      exact Nat.lt_irrefl _ hh
    refine ⟨Accumulators.has_make hh s, ?_, ?_⟩
    · simp only [touch, Touched.starts, if_neg hne]
    · refine (Accumulators.state_make_of_has hh s).trans (add_zero _).symm
  | bind k h' =>
    have hacc := accumulators_putIfAbsent r k h'
    refine ⟨?_, rfl, ?_⟩
    · simp only [touch, hacc]
      exact hh
    · simp only [touch, state, hacc]
      exact (add_zero _).symm
  | add h' d =>
    by_cases hd : (r.state h' + d).InRange
    · rw [touch_add_of_inRange hd]
      refine ⟨Accumulators.has_set hh _ _, rfl, ?_⟩
      by_cases hne : h' = h
      · subst hne
        simp only [Touched.gains, if_pos, List.sum_cons, List.sum_nil, add_zero]
        exact Accumulators.state_set_self hh _
      · simp only [Touched.gains, if_neg hne, List.sum_nil, add_zero]
        exact Accumulators.state_set_of_ne hne _
    · rw [touch_add_of_not_inRange hd]
      exact ⟨hh, rfl, (add_zero _).symm⟩

/-- A step that makes an accumulator makes it once, and no step adds to one that there is not. -/
theorem unmade_touch {h : Handle} (hh : ¬ r.accumulators.Has h) (hn : r.Names t) :
    (r.touch t).1.gains h = [] ∧
      ((¬ (r.touch t).2.accumulators.Has h ∧ (r.touch t).1.starts h = []) ∨
        ((r.touch t).2.accumulators.Has h ∧ (r.touch t).1.starts h = [(r.touch t).2.state h])) := by
  cases t with
  | look k => exact ⟨rfl, Or.inl ⟨hh, rfl⟩⟩
  | bind k h' =>
    refine ⟨rfl, Or.inl ⟨?_, rfl⟩⟩
    simp only [touch, accumulators_putIfAbsent]
    exact hh
  | make s =>
    refine ⟨rfl, ?_⟩
    by_cases he : (r.fresh s).1 = h
    · subst he
      refine Or.inr ⟨fresh_has r s, ?_⟩
      simp only [touch, Touched.starts, if_pos, state_fresh_self]
    · refine Or.inl ⟨fun hlast => he ?_, ?_⟩
      · obtain ⟨k⟩ := h
        simp only [touch, fresh, Accumulators.make, Accumulators.Has, List.length_append,
          List.length_singleton] at hh hlast
        refine congrArg Handle.mk ?_
        omega
      · simp only [touch, Touched.starts, if_neg he]
  | add h' d =>
    have hne : h' ≠ h := by
      rintro rfl
      exact hh hn
    by_cases hd : (r.state h' + d).InRange
    · rw [touch_add_of_inRange hd]
      refine ⟨if_neg hne, Or.inl ⟨?_, rfl⟩⟩
      simpa only [write, Accumulators.set, Accumulators.Has, List.length_set] using hh
    · rw [touch_add_of_not_inRange hd]
      exact ⟨rfl, Or.inl ⟨hh, rfl⟩⟩

/-! ### What a row of steps leads to -/

/-- A registry, and all steps that led to it. -/
structure Log (es : List Touched) (r : Registry) : Prop where
  nodup : (r.entries.map Prod.fst).Nodup
  has : ∀ {key h}, r.get? key = some h → r.accumulators.Has h
  found_eq : ∀ {key h}, h ∈ found key es → r.get? key = some h
  /-- Nobody has tried to bind the key; or the first who tried did, and all others were told. -/
  binds_eq : ∀ key, (binds key es = [] ∧ r.get? key = none) ∨
    ∃ h later, binds key es = none :: later ∧ r.get? key = some h ∧ ∀ x ∈ later, x = some h
  account : ∀ {h}, r.accumulators.Has h →
    ∃ s, starts h es = [s] ∧ r.state h = s + (gains h es).sum
  unmade : ∀ {h}, ¬ r.accumulators.Has h → starts h es = [] ∧ gains h es = []

theorem log_empty : Log [] empty where
  nodup := List.nodup_nil
  has h := by cases h
  found_eq h := by cases h
  binds_eq key := Or.inl ⟨rfl, rfl⟩
  account h := absurd h (Nat.not_lt_zero _)
  unmade h := ⟨rfl, rfl⟩

theorem Log.has_touch (hl : Log es r) (hn : r.Names t) {key : String} {h : Handle}
    (hg : (r.touch t).2.get? key = some h) : (r.touch t).2.accumulators.Has h := by
  rcases get?_touch r t key with ⟨-, hsame⟩ | ⟨h', rfl, -, hnew⟩
  · exact (state_touch (hl.has (hsame ▸ hg)) t).1
  · refine (state_touch ?_ _).1
    rw [hnew] at hg
    obtain rfl := Option.some.inj hg
    cases hold : r.get? key with
    | some resident => exact hl.has hold
    | none => exact hn

theorem Log.binds_touch (hl : Log es r) (t : Touch) (key : String) :
    (binds key (es ++ [(r.touch t).1]) = [] ∧ (r.touch t).2.get? key = none) ∨
    ∃ h later, binds key (es ++ [(r.touch t).1]) = none :: later ∧
      (r.touch t).2.get? key = some h ∧ ∀ x ∈ later, x = some h := by
  rw [binds_concat]
  rcases get?_touch r t key with ⟨hnone, hsame⟩ | ⟨h', -, hone, hnew⟩
  · rw [hnone, hsame, List.append_nil]
    exact hl.binds_eq key
  · rw [hone, hnew]
    rcases hl.binds_eq key with ⟨hes, hg⟩ | ⟨h, later, hes, hg, hall⟩
    · refine Or.inr ⟨h', [], ?_, ?_, ?_⟩
      · rw [hes, hg, List.nil_append]
      · rw [hg, Option.getD_none]
      · intro x hx
        cases hx
    · refine Or.inr ⟨h, later ++ [some h], ?_, ?_, ?_⟩
      · rw [hes, hg, List.cons_append]
      · rw [hg, Option.getD_some]
      · intro x hx
        rcases List.mem_append.1 hx with hx | hx
        · exact hall x hx
        · exact List.mem_singleton.1 hx

theorem Log.account_touch (hl : Log es r) (hn : r.Names t) {h : Handle}
    (hh : (r.touch t).2.accumulators.Has h) :
    ∃ s, starts h (es ++ [(r.touch t).1]) = [s] ∧
      (r.touch t).2.state h = s + (gains h (es ++ [(r.touch t).1])).sum := by
  rw [starts_concat, gains_concat, List.sum_append]
  by_cases hold : r.accumulators.Has h
  · obtain ⟨s, hs, hst⟩ := hl.account hold
    obtain ⟨-, hnone, hnew⟩ := state_touch hold t
    refine ⟨s, ?_, ?_⟩
    · rw [hs, hnone, List.append_nil]
    · rw [hnew, hst, add_assoc]
  · obtain ⟨hs, hg⟩ := hl.unmade hold
    obtain ⟨hgains, ⟨hno, -⟩ | ⟨-, hmade⟩⟩ := unmade_touch hold hn
    · exact absurd hh hno
    · refine ⟨(r.touch t).2.state h, ?_, ?_⟩
      · rw [hs, hmade, List.nil_append]
      · rw [hg, hgains, List.sum_nil, add_zero, add_zero]

theorem Log.unmade_touch (hl : Log es r) (hn : r.Names t) {h : Handle}
    (hh : ¬ (r.touch t).2.accumulators.Has h) :
    starts h (es ++ [(r.touch t).1]) = [] ∧ gains h (es ++ [(r.touch t).1]) = [] := by
  have hold : ¬ r.accumulators.Has h := fun ho => hh (state_touch ho t).1
  obtain ⟨hs, hg⟩ := hl.unmade hold
  obtain ⟨hgains, ⟨-, hnone⟩ | ⟨hmade, -⟩⟩ := Registry.unmade_touch hold hn
  · rw [starts_concat, gains_concat, hs, hg, hgains, hnone]
    exact ⟨rfl, rfl⟩
  · exact absurd hmade hh

/-- One more step is one more entry. -/
theorem Log.touch (hl : Log es r) (hn : r.Names t) : Log (es ++ [(r.touch t).1]) (r.touch t).2 where
  nodup := nodup_touch hl.nodup t
  has hg := hl.has_touch hn hg
  found_eq := by
    intro key h hf
    rw [found_concat] at hf
    refine get?_touch_of_some ?_ t
    rcases List.mem_append.1 hf with hf | hf
    · exact hl.found_eq hf
    · exact get?_of_found hf
  binds_eq := hl.binds_touch t
  account hh := hl.account_touch hn hh
  unmade hh := hl.unmade_touch hn hh

theorem mem_boundKeys_iff {key : String} : key ∈ boundKeys es ↔ binds key es ≠ [] := by
  simp only [boundKeys, binds, List.mem_flatMap, ne_eq, List.flatMap_eq_nil_iff, not_forall]
  refine exists_congr fun e => ?_
  rw [exists_prop]
  refine and_congr_right fun _ => ?_
  cases e with
  | bound k r =>
    rw [Touched.keys, Touched.binds, List.mem_singleton]
    by_cases hk : k = key
    · rw [if_pos hk]
      exact ⟨fun _ => List.cons_ne_nil _ _, fun _ => hk.symm⟩
    · rw [if_neg hk]
      exact ⟨fun h => absurd h.symm hk, fun h => absurd rfl h⟩
  | _ => exact ⟨fun h => (by cases h), fun h => absurd rfl h⟩

/-- There are as many bound keys as different keys that steps tried to bind. -/
theorem Log.size_eq (hl : Log es r) : r.size = (boundKeys es).dedup.length := by
  have hmem : ∀ key, key ∈ r.entries.map Prod.fst ↔ key ∈ boundKeys es := by
    intro key
    have hentry : key ∈ r.entries.map Prod.fst ↔ r.get? key ≠ none := by
      rw [get?, ne_eq, List.lookup_eq_none_iff, List.mem_map]
      push Not
      refine exists_congr fun p => and_congr_right fun _ => ?_
      rw [@eq_comm _ p.1]
      simp
    rw [hentry, mem_boundKeys_iff]
    rcases hl.binds_eq key with ⟨hes, hg⟩ | ⟨h, later, hes, hg, -⟩ <;> simp [hes, hg]
  rw [size, ← List.length_map, ← List.toFinset_card_of_nodup hl.nodup, ← List.card_toFinset]
  refine congrArg Finset.card (Finset.ext fun key => ?_)
  rw [List.mem_toFinset, List.mem_toFinset, hmem]

/-- What is stored under a key is what its accumulator was made with, once, and all that has been
    added to this accumulator. -/
theorem Log.stored_eq (hl : Log es r) {key : String} {h : Handle} (hg : r.get? key = some h) :
    ∃ s, starts h es = [s] ∧ r.stored key = some (s + (gains h es).sum) := by
  obtain ⟨s, hs, hst⟩ := hl.account (hl.has hg)
  refine ⟨s, hs, ?_⟩
  rw [stored_of_get? hg, hst]

end Registry

end WindowedMean
