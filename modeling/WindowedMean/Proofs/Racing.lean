import Mathlib.Logic.Function.Basic
import WindowedMean.Proofs.Touches

/-! Callers who ask one registry for accumulators, all at the same time.

    Looking, making, binding and adding are single steps. `getOrCreate` is not: it looks, and where
    it finds nothing it makes an accumulator and then tries to bind it. Between these steps others
    take theirs, so two callers may both find nothing and both make one:

        look ──▶ found                          the resident comes back
          └────▶ missing ──▶ carrying ──▶ bound     its own comes back
                                  └────▶ too late   the resident comes back, its own is given up

    Whatever the order of the steps, a key has one accumulator, everybody who asks for the key gets
    it, and nothing is ever added to one that was given up (`one_accumulator_per_key`). -/

namespace WindowedMean

open Registry (Touch Touched)

/-- Where a caller is: between two calls, or inside of `getOrCreate`, where it has found nothing under
    the key, or is about to bind what it has made. -/
inductive Caller where
  | free
  | missing (key : String)
  | carrying (key : String) (h : Handle)
  deriving DecidableEq, Repr

/-- What a caller does next: a single step of its own, or `ask` to begin `getOrCreate` and `proceed`
    to go on with it. -/
inductive Act where
  | look (key : String)
  | make (s : Snapshot)
  | bind (key : String) (h : Handle)
  | add (h : Handle) (d : Snapshot)
  | ask (key : String)
  | proceed
  deriving DecidableEq, Repr

namespace Caller

/-- The single step that an act comes to, if the caller can do it where it is. It can only name
    accumulators that have been handed to somebody. -/
def touch? (handed : List Handle) : Caller → Act → Option Touch
  | .free, .look key => some (.look key)
  | .free, .make s => some (.make s)
  | .free, .bind key h => if h ∈ handed then some (.bind key h) else none
  | .free, .add h d => if h ∈ handed then some (.add h d) else none
  | .free, .ask key => some (.look key)
  | .missing _, .proceed => some (.make 0)
  | .carrying key h, .proceed => some (.bind key h)
  | _, _ => none

/-- Where the caller is once its step is answered. -/
def next : Caller → Act → Touched → Caller
  | .free, .ask key, .looked _ none => .missing key
  | .missing key, .proceed, .made h _ => .carrying key h
  | .carrying _ _, .proceed, _ => .free
  | who, _, _ => who

/-- What `getOrCreate` has made for a key, with this step. -/
def prepared : Caller → Act → Touched → Option (String × Handle)
  | .missing key, .proceed, .made h _ => some (key, h)
  | _, _, _ => none

/-- What `getOrCreate` hands back for a key, if this step is its last. -/
def returned : Caller → Act → Touched → Option (String × Handle)
  | .free, .ask key, .looked _ (some h) => some (key, h)
  | .carrying key h, .proceed, .bound _ r => some (key, r.getD h)
  | _, _, _ => none

/-- The accumulators that the caller is handed with this step. -/
def gets : Caller → Act → Touched → List Handle
  | .free, _, .looked _ r => r.toList
  | .free, _, .made h _ => [h]
  | .free, _, .bound _ r => r.toList
  | .carrying _ h, _, .bound _ r => [r.getD h]
  | _, _, _ => []

end Caller

/-- A registry, where each of its callers is, and all accumulators that have been handed to one. -/
structure Race where
  registry : Registry
  callers : Nat → Caller
  handed : List Handle

/-- A step that was taken, with what `getOrCreate` has made or hands back by it. -/
structure Note where
  touched : Touched
  prepared : Option (String × Handle)
  returned : Option (String × Handle)

namespace Race

/-- An empty registry, and callers none of whom has begun. -/
def start : Race := ⟨.empty, fun _ => .free, []⟩

/-- One act of one caller; nothing happens if it cannot be done. -/
def step (r : Race) (c : Nat) (a : Act) : Option Note × Race :=
  match (r.callers c).touch? r.handed a with
  | none => (none, r)
  | some t =>
    let (e, reg) := r.registry.touch t
    (some ⟨e, (r.callers c).prepared a e, (r.callers c).returned a e⟩,
      ⟨reg, Function.update r.callers c ((r.callers c).next a e), r.handed ++ (r.callers c).gets a e⟩)

/-- A row of acts, each of one of the callers. -/
def run (r : Race) : List (Nat × Act) → List Note × Race
  | [] => ([], r)
  | (c, a) :: acts =>
    let (note, r') := r.step c a
    let (notes, r'') := r'.run acts
    (note.toList ++ notes, r'')

/-- The single steps that were taken. -/
def touches (notes : List Note) : List Touched := notes.map (·.touched)

/-- All that `getOrCreate` has made. -/
def preparations (notes : List Note) : List (String × Handle) := notes.filterMap (·.prepared)

/-- All that `getOrCreate` has handed back. -/
def returns (notes : List Note) : List (String × Handle) := notes.filterMap (·.returned)

/-- What holds after a row of acts. -/
structure OneEach (acts : List (Nat × Act)) : Prop where
  /-- A key once bound stays bound to the same accumulator, whatever comes later. -/
  stays : ∀ later key h, (start.run acts).2.registry.get? key = some h →
    (start.run (acts ++ later)).2.registry.get? key = some h
  /-- Everybody who finds anything under a key finds the resident accumulator. -/
  found_eq : ∀ key h, h ∈ Registry.found key (touches (start.run acts).1) →
    (start.run acts).2.registry.get? key = some h
  /-- Everybody who gets or creates is handed the resident accumulator. -/
  returned_eq : ∀ key h, (key, h) ∈ returns (start.run acts).1 →
    (start.run acts).2.registry.get? key = some h
  /-- The first who tries to bind a key binds it, and all others are told what is there. -/
  binds_eq : ∀ key, (Registry.binds key (touches (start.run acts).1) = [] ∧
      (start.run acts).2.registry.get? key = none) ∨
    ∃ h later, Registry.binds key (touches (start.run acts).1) = none :: later ∧
      (start.run acts).2.registry.get? key = some h ∧ ∀ x ∈ later, x = some h
  size_eq : (start.run acts).2.registry.size =
    (Registry.boundKeys (touches (start.run acts).1)).dedup.length
  /-- What is stored under a key is what its accumulator was made with, and all that was added to it. -/
  stored_eq : ∀ key h, (start.run acts).2.registry.get? key = some h →
    ∃ s, Registry.starts h (touches (start.run acts).1) = [s] ∧
      (start.run acts).2.registry.stored key =
        some (s + (Registry.gains h (touches (start.run acts).1)).sum)
  /-- What `getOrCreate` has made and not bound is found by nobody, handed to nobody, and nothing is
      added to it. -/
  orphans : ∀ key h, (key, h) ∈ preparations (start.run acts).1 →
    (start.run acts).2.registry.get? key ≠ some h →
    Registry.gains h (touches (start.run acts).1) = [] ∧
      ∀ k, h ∉ Registry.found k (touches (start.run acts).1) ∧ (k, h) ∉ returns (start.run acts).1
  /-- With nobody in between, the steps of `getOrCreate` are `getOrCreate`. -/
  alone : ∀ c key, (start.run acts).2.callers c = .free →
    ((start.run acts).2.run [(c, .ask key), (c, .proceed), (c, .proceed)]).2.registry =
        ((start.run acts).2.registry.getOrCreate key).2 ∧
      returns ((start.run acts).2.run [(c, .ask key), (c, .proceed), (c, .proceed)]).1 =
        [(key, ((start.run acts).2.registry.getOrCreate key).1)]

variable {r : Race} {c : Nat} {a : Act} {t : Touch}

/-! ### The steps of a race -/

/-- What an act can come to: the single step, the note of it, where the caller is afterwards, and what
    it has been handed. -/
inductive Move (r : Race) (c : Nat) : Touch → Note → Caller → List Handle → Prop where
  | look (key : String) (hc : r.callers c = .free) :
      Move r c (.look key) ⟨.looked key (r.registry.get? key), none, none⟩ .free
        (r.registry.get? key).toList
  | make (s : Snapshot) (hc : r.callers c = .free) :
      Move r c (.make s) ⟨.made (r.registry.fresh s).1 s, none, none⟩ .free [(r.registry.fresh s).1]
  | bind (key : String) (h : Handle) (hh : h ∈ r.handed) :
      Move r c (.bind key h) ⟨.bound key (r.registry.putIfAbsent key h).1, none, none⟩ .free
        (r.registry.putIfAbsent key h).1.toList
  | add (h : Handle) (d : Snapshot) (hh : h ∈ r.handed) :
      Move r c (.add h d) ⟨(r.registry.touch (.add h d)).1, none, none⟩ .free []
  | find (key : String) (h : Handle) (hg : r.registry.get? key = some h) :
      Move r c (.look key) ⟨.looked key (some h), none, some (key, h)⟩ .free [h]
  | miss (key : String) (hg : r.registry.get? key = none) :
      Move r c (.look key) ⟨.looked key none, none, none⟩ (.missing key) []
  | prepare (key : String) :
      Move r c (.make 0) ⟨.made (r.registry.fresh 0).1 0, some (key, (r.registry.fresh 0).1), none⟩
        (.carrying key (r.registry.fresh 0).1) []
  | settle (key : String) (h : Handle) (hc : r.callers c = .carrying key h) :
      Move r c (.bind key h)
        ⟨.bound key (r.registry.putIfAbsent key h).1, none,
          some (key, (r.registry.putIfAbsent key h).1.getD h)⟩ .free
        [(r.registry.putIfAbsent key h).1.getD h]

theorem step_of_touch?_none (h : (r.callers c).touch? r.handed a = none) :
    r.step c a = (none, r) := by
  rw [step, h]

theorem step_of_touch? (h : (r.callers c).touch? r.handed a = some t) :
    r.step c a =
      (some ⟨(r.registry.touch t).1, (r.callers c).prepared a (r.registry.touch t).1,
        (r.callers c).returned a (r.registry.touch t).1⟩,
        ⟨(r.registry.touch t).2,
          Function.update r.callers c ((r.callers c).next a (r.registry.touch t).1),
          r.handed ++ (r.callers c).gets a (r.registry.touch t).1⟩) := by
  rw [step, h]

/-- Every act that can be done is one of the moves. -/
theorem step_cases (r : Race) (c : Nat) (a : Act) :
    r.step c a = (none, r) ∨ ∃ t e who got, Move r c t e who got ∧ e.touched = (r.registry.touch t).1 ∧
      r.step c a =
        (some e, ⟨(r.registry.touch t).2, Function.update r.callers c who, r.handed ++ got⟩) := by
  cases ht : (r.callers c).touch? r.handed a with
  | none => exact Or.inl (step_of_touch?_none ht)
  | some t =>
    refine Or.inr ?_
    rw [step_of_touch? ht]
    cases hc : r.callers c with
    | free =>
      rw [hc] at ht
      cases a with
      | look key =>
        obtain rfl := Option.some.inj ht
        exact ⟨_, _, _, _, .look key hc, rfl, rfl⟩
      | make s =>
        obtain rfl := Option.some.inj ht
        exact ⟨_, _, _, _, .make s hc, rfl, rfl⟩
      | bind key h =>
        simp only [Caller.touch?, Option.ite_none_right_eq_some, Option.some.injEq] at ht
        obtain ⟨hh, rfl⟩ := ht
        exact ⟨_, _, _, _, .bind key h hh, rfl, rfl⟩
      | add h d =>
        simp only [Caller.touch?, Option.ite_none_right_eq_some, Option.some.injEq] at ht
        obtain ⟨hh, rfl⟩ := ht
        refine ⟨_, _, _, _, .add h d hh, rfl, ?_⟩
        by_cases hd : (r.registry.state h + d).InRange
        · rw [Registry.touch_add_of_inRange hd]
          rfl
        · rw [Registry.touch_add_of_not_inRange hd]
          rfl
      | ask key =>
        obtain rfl := Option.some.inj ht
        cases hg : r.registry.get? key with
        | some h =>
          refine ⟨_, _, _, _, .find key h hg, ?_, ?_⟩
          · rw [Registry.touch, hg]
          · rw [Registry.touch, hg]
            rfl
        | none =>
          refine ⟨_, _, _, _, .miss key hg, ?_, ?_⟩
          · rw [Registry.touch, hg]
          · rw [Registry.touch, hg]
            rfl
      | proceed => cases ht
    | missing key =>
      rw [hc] at ht
      cases a with
      | proceed =>
        obtain rfl := Option.some.inj ht
        exact ⟨_, _, _, _, .prepare key, rfl, rfl⟩
      | _ => cases ht
    | carrying key h =>
      rw [hc] at ht
      cases a with
      | proceed =>
        obtain rfl := Option.some.inj ht
        exact ⟨_, _, _, _, .settle key h hc, rfl, rfl⟩
      | _ => cases ht

/-! ### What a step keeps -/

/-- A race, and the notes of all steps that led to it. -/
structure Kept (notes : List Note) (r : Race) : Prop where
  log : Registry.Log (touches notes) r.registry
  returned_eq : ∀ {key h}, (key, h) ∈ returns notes → r.registry.get? key = some h
  handed_has : ∀ {h}, h ∈ r.handed → r.registry.accumulators.Has h
  bound_handed : ∀ {key h}, r.registry.get? key = some h → h ∈ r.handed
  gains_handed : ∀ {h}, Registry.gains h (touches notes) ≠ [] → h ∈ r.handed
  carried : ∀ {c key h}, r.callers c = .carrying key h → (key, h) ∈ preparations notes
  prepared_has : ∀ {key h}, (key, h) ∈ preparations notes → r.registry.accumulators.Has h
  prepared_once : ∀ {k k' h}, (k, h) ∈ preparations notes → (k', h) ∈ preparations notes → k = k'
  /-- What `getOrCreate` has made and not bound has not been handed to anybody. -/
  own : ∀ {key h}, (key, h) ∈ preparations notes → r.registry.get? key = some h ∨ h ∉ r.handed

variable {notes : List Note} {e : Note} {who : Caller} {got : List Handle}

theorem kept_start : Kept [] start where
  log := Registry.log_empty
  returned_eq h := by cases h
  handed_has h := by cases h
  bound_handed h := by cases h
  gains_handed h := absurd rfl h
  carried h := by cases h
  prepared_has h := by cases h
  prepared_once h := by cases h
  own h := by cases h

/-- The accumulator that a step is aimed at exists. -/
theorem Move.names (m : Move r c t e who got) (hk : Kept notes r) : r.registry.Names t := by
  cases m with
  | bind key h hh => exact hk.handed_has hh
  | add h d hh => exact hk.handed_has hh
  | settle key h hc => exact hk.prepared_has (hk.carried hc)
  | _ => trivial

/-- The answer to one who tries to bind a key, or else his own accumulator, is what is bound then. -/
theorem get?_bind (reg : Registry) (key : String) (h : Handle) :
    (reg.touch (.bind key h)).2.get? key = some ((reg.putIfAbsent key h).1.getD h) := by
  cases hg : reg.get? key with
  | some resident =>
    rw [Registry.touch, Registry.putIfAbsent_of_get? hg]
    exact hg
  | none =>
    rw [Registry.touch, Registry.putIfAbsent_of_get?_none hg]
    exact (Registry.putIfAbsent_of_get?_none (h := h) hg ▸ Registry.get?_putIfAbsent hg key).trans
      (if_pos rfl)

theorem fst_putIfAbsent (reg : Registry) (key : String) (h : Handle) :
    (reg.putIfAbsent key h).1 = reg.get? key := by
  cases hg : reg.get? key with
  | some resident => rw [Registry.putIfAbsent_of_get? hg]
  | none => rw [Registry.putIfAbsent_of_get?_none hg]

/-- What `getOrCreate` hands back is what is bound to the key then. -/
theorem Move.returned_eq (m : Move r c t e who got) {key : String} {h : Handle}
    (hr : e.returned = some (key, h)) : (r.registry.touch t).2.get? key = some h := by
  cases m with
  | find _ _ hg =>
    cases hr
    exact hg
  | settle _ _ hc =>
    cases hr
    exact get?_bind ..
  | _ => cases hr

/-- A caller is handed what had been bound, what it has just made for itself, or what it carried and
    has just bound. -/
theorem Move.got_cases (m : Move r c t e who got) {h : Handle} (hh : h ∈ got) :
    (∃ key, r.registry.get? key = some h) ∨
    (∃ s, t = .make s ∧ h = (r.registry.fresh s).1 ∧ e.prepared = none) ∨
    ∃ key, r.callers c = .carrying key h ∧ (r.registry.touch t).2.get? key = some h := by
  cases m with
  | look key hc => exact Or.inl ⟨key, Option.mem_toList.1 hh⟩
  | make s hc => exact Or.inr (Or.inl ⟨s, rfl, List.mem_singleton.1 hh, rfl⟩)
  | bind key h' hh' =>
    rw [fst_putIfAbsent] at hh
    exact Or.inl ⟨key, Option.mem_toList.1 hh⟩
  | find key h' hg =>
    obtain rfl := List.mem_singleton.1 hh
    exact Or.inl ⟨key, hg⟩
  | settle key h' hc =>
    have hbound := get?_bind r.registry key h'
    rw [List.mem_singleton] at hh
    rw [← hh] at hbound
    cases hg : r.registry.get? key with
    | some resident =>
      refine Or.inl ⟨key, ?_⟩
      rw [hh, fst_putIfAbsent, hg, Option.getD_some]
    | none =>
      refine Or.inr (Or.inr ⟨key, ?_, hbound⟩)
      rw [hc, hh, fst_putIfAbsent, hg, Option.getD_none]
  | _ => cases hh

/-- What `getOrCreate` has just made did not exist before, and has not been handed to anybody. -/
theorem Move.prepared_eq (m : Move r c t e who got) {key : String} {h : Handle}
    (hp : e.prepared = some (key, h)) :
    t = .make 0 ∧ h = (r.registry.fresh 0).1 ∧ got = [] ∧ who = .carrying key h := by
  cases m with
  | prepare key' =>
    cases hp
    exact ⟨rfl, rfl, rfl, rfl⟩
  | _ => cases hp

theorem Move.carrying_eq (m : Move r c t e who got) {key : String} {h : Handle}
    (hw : who = .carrying key h) : e.prepared = some (key, h) := by
  cases m with
  | prepare key' =>
    cases hw
    rfl
  | _ => cases hw

/-- What a key is newly bound to has been handed to somebody. -/
theorem Move.bound_handed (m : Move r c t e who got) (hk : Kept notes r) {key : String} {h : Handle}
    (hg : (r.registry.touch t).2.get? key = some h) : h ∈ r.handed ++ got := by
  rcases Registry.get?_touch r.registry t key with ⟨-, hsame⟩ | ⟨h', rfl, -, hnew⟩
  · exact List.mem_append_left _ (hk.bound_handed (hsame ▸ hg))
  · cases hold : r.registry.get? key with
    | some resident =>
      rw [hnew, hold] at hg
      exact List.mem_append_left _ (hk.bound_handed (hold.trans hg))
    | none =>
      rw [hnew, hold] at hg
      obtain rfl := Option.some.inj hg
      cases m with
      | bind _ _ hh => exact List.mem_append_left _ hh
      | settle _ _ hc =>
        rw [fst_putIfAbsent, hold]
        exact List.mem_append_right _ (List.mem_singleton_self _)

/-- Only what has been handed to somebody is added to. -/
theorem Move.gains_handed (m : Move r c t e who got) {h : Handle} (hg : e.touched.gains h ≠ []) :
    h ∈ r.handed := by
  cases m with
  | add h' d hh =>
    by_cases hne : h' = h
    · exact hne ▸ hh
    · refine absurd ?_ hg
      by_cases hd : (r.registry.state h' + d).InRange
      · rw [Registry.touch_add_of_inRange hd]
        exact if_neg hne
      · rw [Registry.touch_add_of_not_inRange hd]
        rfl
  | _ => exact absurd rfl hg

theorem touches_concat (notes : List Note) (e : Note) :
    touches (notes ++ [e]) = touches notes ++ [e.touched] := by
  simp [touches]

theorem mem_returns_concat {p : String × Handle} :
    p ∈ returns (notes ++ [e]) ↔ p ∈ returns notes ∨ e.returned = some p := by
  simp [returns, List.filterMap_append]

theorem mem_preparations_concat {p : String × Handle} :
    p ∈ preparations (notes ++ [e]) ↔ p ∈ preparations notes ∨ e.prepared = some p := by
  simp [preparations, List.filterMap_append]

/-- What has just been made did not exist before. -/
theorem ne_fresh {reg : Registry} {h : Handle} (hh : reg.accumulators.Has h) (s : Snapshot) :
    h ≠ (reg.fresh s).1 := by
  rintro rfl
  exact Nat.lt_irrefl _ hh

/-- What `getOrCreate` has made is kept from everybody until it is bound. -/
theorem Move.own (m : Move r c t e who got) (hk : Kept notes r) {key : String} {h : Handle}
    (hp : (key, h) ∈ preparations (notes ++ [e])) :
    (r.registry.touch t).2.get? key = some h ∨ h ∉ r.handed ++ got := by
  rcases mem_preparations_concat.1 hp with hold | hnow
  · rcases hk.own hold with hg | hfree
    · exact Or.inl (Registry.get?_touch_of_some hg t)
    · by_cases hh : h ∈ got
      · rcases m.got_cases hh with ⟨k, hg⟩ | ⟨s, rfl, hfresh, -⟩ | ⟨k, hc, hg⟩
        · exact absurd (hk.bound_handed hg) hfree
        · exact absurd hfresh (ne_fresh (hk.prepared_has hold) s)
        · rw [hk.prepared_once hold (hk.carried hc)]
          exact Or.inl hg
      · exact Or.inr fun hmem => (List.mem_append.1 hmem).elim hfree hh
  · obtain ⟨rfl, rfl, rfl, -⟩ := m.prepared_eq hnow
    refine Or.inr ?_
    rw [List.append_nil]
    exact fun hmem => ne_fresh (hk.handed_has hmem) 0 rfl

/-- What `getOrCreate` makes, it makes for one key. -/
theorem Move.prepared_once (m : Move r c t e who got) (hk : Kept notes r) {k k' : String}
    {h : Handle} (hp : (k, h) ∈ preparations (notes ++ [e]))
    (hp' : (k', h) ∈ preparations (notes ++ [e])) : k = k' := by
  have hnew {k k' : String} (hold : (k, h) ∈ preparations notes) (hnow : e.prepared = some (k', h)) :
      False := by
    obtain ⟨-, hfresh, -⟩ := m.prepared_eq hnow
    exact ne_fresh (hk.prepared_has hold) 0 hfresh
  rcases mem_preparations_concat.1 hp with hold | hnow <;>
    rcases mem_preparations_concat.1 hp' with hold' | hnow'
  · exact hk.prepared_once hold hold'
  · exact (hnew hold hnow').elim
  · exact (hnew hold' hnow).elim
  · rw [hnow] at hnow'
    exact congrArg Prod.fst (Option.some.inj hnow')

theorem Kept.move (hk : Kept notes r) (m : Move r c t e who got)
    (ht : e.touched = (r.registry.touch t).1) :
    Kept (notes ++ [e])
      ⟨(r.registry.touch t).2, Function.update r.callers c who, r.handed ++ got⟩ where
  log := by
    rw [touches_concat, ht]
    exact hk.log.touch (m.names hk)
  returned_eq := by
    intro key h hr
    rcases mem_returns_concat.1 hr with hold | hnow
    · exact Registry.get?_touch_of_some (hk.returned_eq hold) t
    · exact m.returned_eq hnow
  handed_has := by
    intro h hh
    have hlog := hk.log.touch (m.names hk)
    rcases List.mem_append.1 hh with hold | hnow
    · exact (Registry.state_touch (hk.handed_has hold) t).1
    · rcases m.got_cases hnow with ⟨k, hg⟩ | ⟨s, rfl, rfl, -⟩ | ⟨k, hc, hg⟩
      · exact hlog.has (Registry.get?_touch_of_some hg t)
      · exact Registry.fresh_has r.registry s
      · exact hlog.has hg
  bound_handed hg := m.bound_handed hk hg
  gains_handed := by
    intro h hg
    rw [touches_concat, Registry.gains_concat, ne_eq, List.append_eq_nil_iff, not_and_or] at hg
    rcases hg with hold | hnow
    · exact List.mem_append_left _ (hk.gains_handed hold)
    · exact List.mem_append_left _ (m.gains_handed hnow)
  carried := by
    intro c' key h hc
    rw [mem_preparations_concat]
    by_cases hcc : c' = c
    · subst hcc
      exact Or.inr (m.carrying_eq ((Function.update_self ..).symm.trans hc))
    · exact Or.inl (hk.carried ((Function.update_of_ne hcc ..).symm.trans hc))
  prepared_has := by
    intro key h hp
    rcases mem_preparations_concat.1 hp with hold | hnow
    · exact (Registry.state_touch (hk.prepared_has hold) t).1
    · obtain ⟨rfl, rfl, -⟩ := m.prepared_eq hnow
      exact Registry.fresh_has r.registry 0
  prepared_once hp hp' := m.prepared_once hk hp hp'
  own hp := m.own hk hp

/-! ### Whole races -/

theorem run_cons (r : Race) (c : Nat) (a : Act) (acts : List (Nat × Act)) :
    r.run ((c, a) :: acts) =
      ((r.step c a).1.toList ++ ((r.step c a).2.run acts).1, ((r.step c a).2.run acts).2) := rfl

theorem run_append (r : Race) (acts later : List (Nat × Act)) :
    (r.run (acts ++ later)).2 = ((r.run acts).2.run later).2 := by
  induction acts generalizing r with
  | nil => rfl
  | cons x acts ih =>
    obtain ⟨c, a⟩ := x
    rw [List.cons_append, run_cons, run_cons]
    exact ih _

theorem Kept.run {notes : List Note} {r : Race} (hk : Kept notes r) (acts : List (Nat × Act)) :
    Kept (notes ++ (r.run acts).1) (r.run acts).2 := by
  induction acts generalizing notes r with
  | nil =>
    rw [Race.run, List.append_nil]
    exact hk
  | cons x acts ih =>
    obtain ⟨c, a⟩ := x
    rw [run_cons, ← List.append_assoc]
    refine ih ?_
    rcases step_cases r c a with hs | ⟨t, e, who, got, m, ht, hs⟩
    · rw [hs, Option.toList_none, List.append_nil]
      exact hk
    · rw [hs, Option.toList_some]
      exact hk.move m ht

theorem get?_run_of_some {key : String} {h : Handle} {r : Race} (hg : r.registry.get? key = some h)
    (acts : List (Nat × Act)) : (r.run acts).2.registry.get? key = some h := by
  induction acts generalizing r with
  | nil => exact hg
  | cons x acts ih =>
    obtain ⟨c, a⟩ := x
    rw [run_cons]
    refine ih ?_
    rcases step_cases r c a with hs | ⟨t, e, who, got, -, -, hs⟩
    · rw [hs]
      exact hg
    · rw [hs]
      exact Registry.get?_touch_of_some hg t

/-- With nobody in between, the steps of `getOrCreate` are `getOrCreate`. -/
theorem run_ask (r : Race) (c : Nat) (key : String) (hc : r.callers c = .free) :
    (r.run [(c, .ask key), (c, .proceed), (c, .proceed)]).2.registry =
        (r.registry.getOrCreate key).2 ∧
      returns (r.run [(c, .ask key), (c, .proceed), (c, .proceed)]).1 =
        [(key, (r.registry.getOrCreate key).1)] := by
  cases hg : r.registry.get? key with
  | some h =>
    rw [Registry.getOrCreate_of_get? hg]
    simp [run, step, hc, hg, Caller.touch?, Registry.touch, Caller.next, Caller.returned, returns]
  | none =>
    have hput := Registry.putIfAbsent_of_get?_none (r := (r.registry.fresh 0).2)
      (h := (r.registry.fresh 0).1) hg
    rw [Registry.getOrCreate_of_get?_none hg]
    simp [run, step, hc, hg, hput, Caller.touch?, Registry.touch, Caller.next, Caller.returned,
      returns]

/-- Whatever callers do at the same time, a key has one accumulator: the first who binds the key binds
    it for ever, everybody who asks is handed the same, and what it holds is all that was added to it
    by anybody. -/
theorem one_accumulator_per_key (acts : List (Nat × Act)) : OneEach acts := by
  have hk := kept_start.run acts
  rw [List.nil_append] at hk
  exact {
    stays := by
      intro later key h hg
      rw [run_append]
      exact get?_run_of_some hg later
    found_eq := fun key h hf => hk.log.found_eq hf
    returned_eq := fun key h hr => hk.returned_eq hr
    binds_eq := hk.log.binds_eq
    size_eq := hk.log.size_eq
    stored_eq := fun key h hg => hk.log.stored_eq hg
    orphans := by
      intro key h hp hne
      have hfree := (hk.own hp).resolve_left hne
      refine ⟨?_, fun k => ⟨?_, ?_⟩⟩
      · by_contra hg
        exact hfree (hk.gains_handed hg)
      · intro hf
        exact hfree (hk.bound_handed (hk.log.found_eq hf))
      · intro hr
        exact hfree (hk.bound_handed (hk.returned_eq hr))
    alone := fun c key hc => run_ask _ c key hc }

/-- Two callers find nothing, both make an accumulator, and the second is faster. Both add to what they
    are handed, and a third caller binds it to another key as well. -/
theorem one_accumulator_per_key_of_race :
    let acts := [(0, .ask "k"), (1, .ask "k"), (0, .proceed), (1, .proceed), (1, .proceed),
      (0, .proceed), (0, .add ⟨1⟩ ⟨5, 1⟩), (2, .bind "m" ⟨1⟩), (1, .add ⟨1⟩ ⟨2, 1⟩)]
    OneEach acts ∧ returns (start.run acts).1 = [("k", ⟨1⟩), ("k", ⟨1⟩)] ∧
      (start.run acts).2.registry.stored "k" = some ⟨7, 2⟩ ∧
      (start.run acts).2.registry.stored "m" = some ⟨7, 2⟩ ∧
      (start.run acts).2.registry.state ⟨0⟩ = 0 :=
  ⟨one_accumulator_per_key _, by decide +kernel⟩

end Race

end WindowedMean
