import Mathlib.Logic.Basic
import WindowedMean.Registry
import WindowedMean.Proofs.Sums

/-! What is stored under each key, as a view of a registry.

    `stored` is all that the world outside sees of a registry. Every operation is aimed at one key,
    and what it leaves behind is the same each time:

        the key aimed at    reads so, and keeps its accumulator if it had one
        any other key       has its accumulator as before
        any accumulator     reads as before, unless it is the one under the key

    For this it is enough that bound accumulators exist (`Backed`). If moreover no two keys share one
    (`Sound`), which every operation keeps, then any other key reads as before, too. -/

namespace WindowedMean

theorem Accumulators.has_make {t : Accumulators} {h : Handle} (hh : t.Has h) (s : Snapshot) :
    (t.make s).2.Has h := by
  simp only [Has, make, List.length_append] at hh ⊢
  omega

theorem Accumulators.has_make_self (t : Accumulators) (s : Snapshot) :
    (t.make s).2.Has (t.make s).1 := by
  simp only [Has, make, List.length_append, List.length_singleton]
  omega

theorem Accumulators.has_set {t : Accumulators} {h : Handle} (hh : t.Has h) (h' : Handle)
    (s : Snapshot) : (t.set h' s).Has h := by
  simp only [Has, set, List.length_set] at hh ⊢
  exact hh

theorem Accumulators.set_set (t : Accumulators) (h : Handle) (s s' : Snapshot) :
    (t.set h s).set h s' = t.set h s' := congrArg Accumulators.mk (List.set_set ..)

/-- Writing what is there changes nothing. -/
theorem Accumulators.set_state {t : Accumulators} {h : Handle} (hh : t.Has h) :
    t.set h (t.state h) = t := by
  simp only [Has] at hh
  rw [set, state, List.getD_eq_getElem?_getD, List.getElem?_eq_getElem hh, Option.getD_some,
    List.set_getElem_self]

theorem Accumulators.add_of_inRange {t : Accumulators} {h : Handle} {d : Snapshot}
    (hd : (t.state h + d).InRange) : t.add h d = .ok (t.set h (t.state h + d)) := by
  have hadd : (t.state h).add d = .ok (t.state h + d) := Snapshot.add_eq_ok_iff.2 ⟨hd, rfl⟩
  rw [add, hadd]

theorem Accumulators.add_of_not_inRange {t : Accumulators} {h : Handle} {d : Snapshot}
    (hd : ¬ (t.state h + d).InRange) : t.add h d = .error .overflow := by
  have hadd : (t.state h).add d = .error .overflow := Snapshot.add_eq_error_iff.2 ⟨hd, rfl⟩
  rw [add, hadd]

namespace Registry
variable {r r' : Registry} {key : String} {h : Handle} {old new : Snapshot}

/-- Every bound accumulator exists. -/
def Backed (r : Registry) : Prop :=
  ∀ {key : String} {h : Handle}, r.get? key = some h → r.accumulators.Has h

/-- Every bound accumulator exists, and no two keys are bound to the same one. -/
structure Sound (r : Registry) : Prop where
  has : ∀ {key : String} {h : Handle}, r.get? key = some h → r.accumulators.Has h
  apart : ∀ {k k' : String} {h : Handle}, r.get? k = some h → r.get? k' = some h → k = k'

theorem Sound.backed (hs : r.Sound) : r.Backed := hs.has

theorem sound_empty : empty.Sound := by
  constructor
  · intro key h hg
    simp [get?, empty] at hg
  · intro k k' h hg
    simp [get?, empty] at hg

theorem stored_of_get? (hg : r.get? key = some h) : r.stored key = some (r.state h) := by
  rw [stored, hg, Option.map_some]

theorem stored_of_get?_none (hg : r.get? key = none) : r.stored key = none := by
  rw [stored, hg, Option.map_none]

/-! ### What an operation leaves as it is -/

/-- From one registry to another only what is stored under one key is different. A bound key keeps
    its accumulator, a vacant one has got a new one, and no other accumulator has changed. -/
structure ChangesOnly (r r' : Registry) (key : String) (new : Snapshot) : Prop where
  backed : r'.Backed
  stored_eq : r'.stored key = some new
  keeps : ∀ h, r.get? key = some h → r'.get? key = some h
  makes : r.get? key = none → ∀ h, r'.get? key = some h → ¬ r.accumulators.Has h
  get?_of_ne : ∀ k, k ≠ key → r'.get? k = r.get? k
  state_of_ne : ∀ h, r.accumulators.Has h → r.get? key ≠ some h → r'.state h = r.state h

namespace ChangesOnly

/-- What is under the key and was there before has been under the key before. -/
theorem get?_of_has (hc : r.ChangesOnly r' key new) (hg : r'.get? key = some h)
    (hh : r.accumulators.Has h) : r.get? key = some h := by
  cases hold : r.get? key with
  | none => exact absurd hh (hc.makes hold h hg)
  | some resident => exact (hc.keeps resident hold).symm.trans hg

theorem sound (hc : r.ChangesOnly r' key new) (hs : r.Sound) : r'.Sound := by
  -- A key that shared its accumulator with the one aimed at would have done so before.
  have hapart {k : String} {h : Handle} (hg : r'.get? key = some h) (hk : r'.get? k = some h) :
      k = key := by
    by_contra hne
    rw [hc.get?_of_ne k hne] at hk
    exact hne (hs.apart hk (hc.get?_of_has hg (hs.has hk)))
  refine ⟨hc.backed, fun {k k' h} hk hk' => ?_⟩
  by_cases h₁ : k = key
  · subst h₁
    exact (hapart hk hk').symm
  · by_cases h₂ : k' = key
    · subst h₂
      exact hapart hk' hk
    · rw [hc.get?_of_ne k h₁] at hk
      rw [hc.get?_of_ne k' h₂] at hk'
      exact hs.apart hk hk'

/-- Where no two keys share an accumulator, no other key reads anything new. -/
theorem stored (hc : r.ChangesOnly r' key new) (hs : r.Sound) (k : String) :
    r'.stored k = if k = key then some new else r.stored k := by
  by_cases hk : k = key
  · rw [if_pos hk, hk, hc.stored_eq]
  · have hget := hc.get?_of_ne k hk
    rw [if_neg hk]
    cases hg : r.get? k with
    | none => rw [stored_of_get?_none hg, stored_of_get?_none (hget.trans hg)]
    | some h =>
      have hne : r.get? key ≠ some h := fun hkey => hk (hs.apart hg hkey)
      rw [stored_of_get? hg, stored_of_get? (hget.trans hg), hc.state_of_ne h (hs.has hg) hne]

/-- Where the key reads as before, every accumulator does. -/
theorem state_eq (hc : r.ChangesOnly r' key ((r.stored key).getD 0)) (hh : r.accumulators.Has h) :
    r'.state h = r.state h := by
  by_cases hg : r.get? key = some h
  · have hst := hc.stored_eq
    rw [stored_of_get? (hc.keeps h hg), stored_of_get? hg, Option.getD_some] at hst
    exact Option.some.inj hst
  · exact hc.state_of_ne h hh hg

/-- What is stored stays in range, if what was written is. A key that shares the accumulator reads
    what was written, too. -/
theorem stored_inRange (hc : r.ChangesOnly r' key new) (hr : r.Backed) (hnew : new.InRange)
    (hall : ∀ k p, r.stored k = some p → p.InRange) :
    ∀ k p, r'.stored k = some p → p.InRange := by
  intro k p hp
  by_cases hk : k = key
  · rw [hk, hc.stored_eq] at hp
    exact Option.some.inj hp ▸ hnew
  · have hget := hc.get?_of_ne k hk
    cases hg : r.get? k with
    | none =>
      rw [stored_of_get?_none (hget.trans hg)] at hp
      cases hp
    | some h =>
      rw [stored_of_get? (hget.trans hg)] at hp
      rw [← Option.some.inj hp]
      by_cases hshared : r.get? key = some h
      · have hst := hc.stored_eq
        rw [stored_of_get? (hc.keeps h hshared)] at hst
        rw [Option.some.inj hst]
        exact hnew
      · rw [hc.state_of_ne h (hr hg) hshared]
        exact hall k _ (stored_of_get? hg)

end ChangesOnly

theorem changesOnly_self (hr : r.Backed) (hg : r.get? key = some h) :
    r.ChangesOnly r key (r.state h) where
  backed := hr
  stored_eq := stored_of_get? hg
  keeps := fun _ hk => hk
  makes := fun hnone => by rw [hg] at hnone; cases hnone
  get?_of_ne := fun _ _ => rfl
  state_of_ne := fun _ _ _ => rfl

/-! ### A new accumulator -/

theorem fresh_has (r : Registry) (s : Snapshot) :
    (r.fresh s).2.accumulators.Has (r.fresh s).1 := r.accumulators.has_make_self s

theorem state_fresh_self (r : Registry) (s : Snapshot) :
    (r.fresh s).2.state (r.fresh s).1 = s := Accumulators.state_make_self _ s

theorem state_fresh_of_has (hh : r.accumulators.Has h) (s : Snapshot) :
    (r.fresh s).2.state h = r.state h := Accumulators.state_make_of_has hh s

theorem changesOnly_fresh (hr : r.Backed) (hg : r.get? key = some h) (s : Snapshot) :
    r.ChangesOnly (r.fresh s).2 key (r.state h) where
  backed := fun hk => Accumulators.has_make (hr hk) s
  stored_eq := (stored_of_get? (r := (r.fresh s).2) hg).trans
    (congrArg some (state_fresh_of_has (hr hg) s))
  keeps := fun _ hk => hk
  makes := fun hnone => by rw [hg] at hnone; cases hnone
  get?_of_ne := fun _ _ => rfl
  state_of_ne := fun _ hh _ => state_fresh_of_has hh s

/-! ### Binding a key -/

theorem putIfAbsent_of_get? {resident : Handle} (hg : r.get? key = some resident) :
    r.putIfAbsent key h = (some resident, r) := by
  rw [putIfAbsent, hg]

theorem putIfAbsent_of_get?_none (hg : r.get? key = none) :
    r.putIfAbsent key h = (none, { r with entries := r.entries ++ [(key, h)] }) := by
  rw [putIfAbsent, hg]

theorem get?_putIfAbsent (hg : r.get? key = none) (k : String) :
    (r.putIfAbsent key h).2.get? k = if k = key then some h else r.get? k := by
  rw [putIfAbsent_of_get?_none hg]
  change (r.entries ++ [(key, h)]).lookup k = _
  rw [List.lookup_append]
  by_cases hk : k = key
  · subst hk
    have hl : r.entries.lookup k = none := hg
    rw [hl, if_pos rfl, Option.none_or, List.lookup_cons_self]
  · have hl : [(key, h)].lookup k = none := by
      rw [List.lookup_cons, beq_false_of_ne hk]
      rfl
    rw [hl, Option.or_none, if_neg hk]
    rfl

/-- A new accumulator is put under a vacant key. -/
theorem changesOnly_putIfAbsent (hr : r.Backed) (hg : r.get? key = none) (s : Snapshot) :
    r.ChangesOnly ((r.fresh s).2.putIfAbsent key (r.fresh s).1).2 key s := by
  have hget := get?_putIfAbsent (r := (r.fresh s).2) (h := (r.fresh s).1) hg
  have hacc : ((r.fresh s).2.putIfAbsent key (r.fresh s).1).2.accumulators =
      (r.fresh s).2.accumulators := by
    rw [putIfAbsent_of_get?_none (r := (r.fresh s).2) hg]
  have hown := (hget key).trans (if_pos rfl)
  refine ⟨?_, ?_, ?_, ?_, ?_, ?_⟩
  · intro k h hk
    rw [hget] at hk
    rw [hacc]
    split at hk
    · rw [← Option.some.inj hk]
      exact fresh_has r s
    · exact Accumulators.has_make (hr hk) s
  · rw [stored_of_get? hown, state, hacc]
    exact congrArg some (state_fresh_self r s)
  · intro h hk
    rw [hg] at hk
    cases hk
  · intro _ h hk hh
    rw [hown] at hk
    rw [← Option.some.inj hk] at hh
    exact Nat.lt_irrefl _ hh
  · intro k hk
    rw [hget, if_neg hk]
    rfl
  · intro h hh _
    rw [state, hacc]
    exact state_fresh_of_has hh s

/-! ### Looking first, then making -/

theorem getOrCreate_of_get? (hg : r.get? key = some h) : r.getOrCreate key = (h, r) := by
  rw [getOrCreate, hg]

theorem getOrCreate_of_get?_none (hg : r.get? key = none) :
    r.getOrCreate key = ((r.fresh 0).1, ((r.fresh 0).2.putIfAbsent key (r.fresh 0).1).2) := by
  have hp := putIfAbsent_of_get?_none (r := (r.fresh 0).2) (h := (r.fresh 0).1) hg
  rw [getOrCreate, hg]
  simp only [hp]

/-- The handle that comes back is the one bound to the key. -/
theorem get?_getOrCreate (r : Registry) (key : String) :
    (r.getOrCreate key).2.get? key = some (r.getOrCreate key).1 := by
  cases hg : r.get? key with
  | some h =>
    rw [getOrCreate_of_get? hg]
    exact hg
  | none =>
    rw [getOrCreate_of_get?_none hg]
    exact (get?_putIfAbsent (r := (r.fresh 0).2) hg key).trans (if_pos rfl)

/-- An absent key is there afterwards and empty; nothing else is different. -/
theorem changesOnly_getOrCreate (hr : r.Backed) (key : String) :
    r.ChangesOnly (r.getOrCreate key).2 key ((r.stored key).getD 0) := by
  cases hg : r.get? key with
  | some h =>
    rw [getOrCreate_of_get? hg, stored_of_get? hg]
    exact changesOnly_self hr hg
  | none =>
    rw [getOrCreate_of_get?_none hg, stored_of_get?_none hg]
    exact changesOnly_putIfAbsent hr hg 0

/-- What the handle reads is what was stored, nothing stored reading as zero. -/
theorem state_getOrCreate (hr : r.Backed) (key : String) :
    (r.getOrCreate key).2.state (r.getOrCreate key).1 = (r.stored key).getD 0 := by
  have h := (changesOnly_getOrCreate hr key).stored_eq
  rw [stored_of_get? (get?_getOrCreate r key)] at h
  exact Option.some.inj h

/-! ### Adding -/

/-- Writes the state of one accumulator. -/
def write (r : Registry) (h : Handle) (s : Snapshot) : Registry :=
  { r with accumulators := r.accumulators.set h s }

theorem state_write_self (hh : r.accumulators.Has h) (s : Snapshot) :
    (r.write h s).state h = s := Accumulators.state_set_self hh s

theorem state_write_of_ne {h' : Handle} (hne : h ≠ h') (s : Snapshot) :
    (r.write h s).state h' = r.state h' := Accumulators.state_set_of_ne hne s

theorem write_write (r : Registry) (h : Handle) (s s' : Snapshot) :
    (r.write h s).write h s' = r.write h s' :=
  congrArg (Registry.mk · r.entries) (r.accumulators.set_set h s s')

theorem write_state (hh : r.accumulators.Has h) : r.write h (r.state h) = r :=
  congrArg (Registry.mk · r.entries) (Accumulators.set_state hh)

theorem ChangesOnly.write (hc : r.ChangesOnly r' key old) (hg : r'.get? key = some h)
    (new : Snapshot) : r.ChangesOnly (r'.write h new) key new where
  backed := fun hk => Accumulators.has_set (hc.backed hk) h new
  stored_eq := by
    rw [stored_of_get? (r := r'.write h new) hg, state_write_self (hc.backed hg)]
  keeps := hc.keeps
  makes := hc.makes
  get?_of_ne := hc.get?_of_ne
  state_of_ne := by
    intro h' hh' hne
    have hown : h ≠ h' := by
      rintro rfl
      exact hne (hc.get?_of_has hg hh')
    rw [state_write_of_ne hown, hc.state_of_ne h' hh' hne]

theorem add_of_inRange {d : Snapshot} (hd : (r.state h + d).InRange) :
    r.add h d = .ok (r.write h (r.state h + d)) := by
  rw [add, Accumulators.add_of_inRange hd]
  rfl

theorem add_of_not_inRange {d : Snapshot} (hd : ¬ (r.state h + d).InRange) :
    r.add h d = .error .overflow := by
  rw [add, Accumulators.add_of_not_inRange hd]

/-! ### Whole requests -/

/-- A pair is added under a key if the sum is in range. Either way the key is there afterwards. -/
theorem addUnder_cases (hr : r.Backed) (key : String) (d : Snapshot) :
    (((r.stored key).getD 0 + d).InRange ∧ (r.addUnder key d).1 = .ok () ∧
      r.ChangesOnly (r.addUnder key d).2 key ((r.stored key).getD 0 + d)) ∨
    (¬ ((r.stored key).getD 0 + d).InRange ∧ (r.addUnder key d).1 = .error .overflow ∧
      r.ChangesOnly (r.addUnder key d).2 key ((r.stored key).getD 0)) := by
  have hc := changesOnly_getOrCreate hr key
  have hg := get?_getOrCreate r key
  rw [← state_getOrCreate hr key] at hc ⊢
  rw [addUnder]
  by_cases hd : ((r.getOrCreate key).2.state (r.getOrCreate key).1 + d).InRange
  · simp only [add_of_inRange hd]
    exact Or.inl ⟨hd, trivial, hc.write hg _⟩
  · simp only [add_of_not_inRange hd]
    exact Or.inr ⟨hd, trivial, hc⟩

theorem sound_addUnder (hs : r.Sound) (key : String) (d : Snapshot) :
    (r.addUnder key d).2.Sound := by
  rcases addUnder_cases hs.backed key d with ⟨-, -, hc⟩ | ⟨-, -, hc⟩ <;> exact hc.sound hs

theorem addUnder_spec (hs : r.Sound) (key : String) (d : Snapshot) :
    (((r.stored key).getD 0 + d).InRange ∧ (r.addUnder key d).1 = .ok () ∧
      ∀ k, (r.addUnder key d).2.stored k =
        if k = key then some ((r.stored key).getD 0 + d) else r.stored k) ∨
    (¬ ((r.stored key).getD 0 + d).InRange ∧ (r.addUnder key d).1 = .error .overflow ∧
      ∀ k, (r.addUnder key d).2.stored k =
        if k = key then some ((r.stored key).getD 0) else r.stored k) :=
  (addUnder_cases hs.backed key d).imp (fun ⟨hd, hok, hc⟩ => ⟨hd, hok, hc.stored hs⟩)
    fun ⟨hd, herror, hc⟩ => ⟨hd, herror, hc.stored hs⟩

/-- A new accumulator is stored under a vacant key; a bound key answers with what it has. -/
theorem preset_cases (hr : r.Backed) (key : String) (s : Snapshot) :
    (r.preset key s).1 = r.stored key ∧
      r.ChangesOnly (r.preset key s).2 key ((r.stored key).getD s) := by
  rw [preset]
  cases hg : r.get? key with
  | some h =>
    have hp := putIfAbsent_of_get? (r := (r.fresh s).2) (h := (r.fresh s).1) hg
    simp only [hp, stored_of_get? hg]
    exact ⟨congrArg some (state_fresh_of_has (hr hg) s), changesOnly_fresh hr hg s⟩
  | none =>
    have hp := putIfAbsent_of_get?_none (r := (r.fresh s).2) (h := (r.fresh s).1) hg
    have hc := changesOnly_putIfAbsent hr hg s
    rw [hp] at hc
    simp only [hp, stored_of_get?_none hg]
    exact ⟨trivial, hc⟩

theorem sound_preset (hs : r.Sound) (key : String) (s : Snapshot) :
    (r.preset key s).2.Sound := (preset_cases hs.backed key s).2.sound hs

theorem preset_spec (hs : r.Sound) (key : String) (s : Snapshot) :
    (r.preset key s).1 = r.stored key ∧
      ∀ k, (r.preset key s).2.stored k =
        if k = key then some ((r.stored key).getD s) else r.stored k :=
  ⟨(preset_cases hs.backed key s).1, (preset_cases hs.backed key s).2.stored hs⟩

end Registry

end WindowedMean
