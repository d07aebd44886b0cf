import WindowedMean.Proofs.Folding

/-! One batch, whatever the accumulator holds.

    A tracker does not rely on its accumulator to agree with its window. Somebody else may have put
    it there or added to it; then a batch still changes it by what the batch adds less what it
    displaces:

        old  +  (added − displaced)  =  new

    Either both the change and `new` are in range and everything happens, or nothing happens at all.
    Here accumulators are looked at one by one and not by key, since two keys may be bound to the
    same one. The one trace of a refusal is an empty accumulator under a key that had none. -/

namespace WindowedMean

/-- The change of a batch, told by what it adds and what it displaces. -/
theorem Window.change_eq_of_displaced (w : Window) (events : List Int) :
    w.change events =
      ⟨events.sum - (w.displaced events).sum, events.length - (w.displaced events).length⟩ := by
  rw [Window.change, ← exactChange_displaced]
  rfl

/-- With the accumulator in range an empty batch is always taken. -/
theorem Window.admits_nil (w : Window) {old : Snapshot} (h : old.InRange) : w.Admits old [] := by
  rw [Admits, change, extend_nil, sub_self, add_zero]
  exact ⟨⟨fits_zero, fits_zero⟩, h⟩

namespace Tracker
variable {r : Registry}

theorem process_ok_iff (s : Tracker) (hr : r.Backed) (events : List Int) :
    (∃ o, (s.process r events).1 = .ok o) ↔
      s.window.Admits ((r.stored s.key).getD 0) events := by
  rcases s.process_changesOnly hr events with ⟨ha, r', hp, -⟩ | ⟨hna, hp⟩
  · rw [hp]
    exact ⟨fun _ => ha, fun _ => ⟨_, rfl⟩⟩
  · rw [hp]
    refine ⟨?_, fun ha => absurd ha hna⟩
    rintro ⟨o, ho⟩
    cases ho

theorem process_of_ok (s : Tracker) (hr : r.Backed) {events : List Int} {o : Outcome}
    (h : (s.process r events).1 = .ok o) :
    o = ⟨events.length, (s.window.displaced events).length⟩ ∧
      (s.process r events).2.1 = { s with window := s.window.extend events } ∧
      r.ChangesOnly (s.process r events).2.2 s.key
        ((r.stored s.key).getD 0 + s.window.change events) := by
  rcases s.process_changesOnly hr events with ⟨-, r', hp, hc⟩ | ⟨-, hp⟩
  · rw [hp] at h ⊢
    exact ⟨(Except.ok.inj h).symm, rfl, hc⟩
  · rw [hp] at h
    cases h

theorem process_of_error (s : Tracker) (hr : r.Backed) {events : List Int} {e : TrackerError}
    (h : (s.process r events).1 = .error e) :
    e = .overflow events.length ∧ (s.process r events).2 = (s, (r.getOrCreate s.key).2) := by
  rcases s.process_changesOnly hr events with ⟨-, r', hp, -⟩ | ⟨-, hp⟩
  · rw [hp] at h
    cases h
  · rw [hp] at h ⊢
    exact ⟨(Except.error.inj h).symm, rfl⟩

theorem process_nil (s : Tracker) (hr : r.Backed) (hold : ((r.stored s.key).getD 0).InRange) :
    (s.process r []).1 = .ok ⟨0, 0⟩ := by
  obtain ⟨o, ho⟩ := (s.process_ok_iff hr []).2 (s.window.admits_nil hold)
  rw [ho, (s.process_of_ok hr ho).1, ← s.window.forecast_eq_displaced, Window.forecast,
    List.length_nil, Nat.add_zero, Nat.sub_eq_zero_of_le s.window.length_le]
  rfl

theorem process_stored_inRange (s : Tracker) (hr : r.Backed) (events : List Int)
    (hall : ∀ k p, r.stored k = some p → p.InRange) :
    ∀ k p, (s.process r events).2.2.stored k = some p → p.InRange := by
  rcases s.process_changesOnly hr events with ⟨ha, r', hp, hc⟩ | ⟨-, hp⟩ <;> rw [hp]
  · exact hc.stored_inRange hr ha.2 hall
  · refine (Registry.changesOnly_getOrCreate hr s.key).stored_inRange hr ?_ hall
    cases hst : r.stored s.key with
    | none => exact ⟨fits_zero, fits_zero⟩
    | some p => exact hall _ _ hst

/-- A batch is taken exactly if its exact change and both fields of the sum with whatever the
    accumulator holds are in range. Then the accumulator holds that sum and the window has taken the
    batch in. Otherwise window, parked events and accumulators are as they were, and a key that had
    none has got an empty one. What is stored stays in range, and so no empty batch is refused. -/
theorem process_all_or_nothing (s : Tracker) (hr : r.Backed) (events : List Int) :
    let all := s.window.residents ++ events
    let excess := s.window.residents.length + events.length - s.window.capacity
    let evicted := all.take excess
    let d : Snapshot := ⟨events.sum - evicted.sum, events.length - evicted.length⟩
    let old := (r.stored s.key).getD 0
    let answer := (s.process r events).1
    let s' := (s.process r events).2.1
    let r' := (s.process r events).2.2
    ((∃ o, answer = .ok o) ↔
      (Fits d.total ∧ Fits d.count) ∧ Fits (old.total + d.total) ∧ Fits (old.count + d.count)) ∧
    (∀ o, answer = .ok o →
      o = ⟨events.length, evicted.length⟩ ∧ r.ChangesOnly r' s.key (old + d) ∧
      s'.window.residents = all.drop excess ∧ s'.window.parked = s.window.parked ∧
      s'.window.capacity = s.window.capacity ∧ s'.key = s.key) ∧
    (∀ e, answer = .error e →
      e = .overflow events.length ∧ s' = s ∧ r.ChangesOnly r' s.key old ∧
      (∀ h, r.accumulators.Has h → r'.state h = r.state h) ∧
      (∀ h, r.get? s.key = some h → r' = r) ∧
      (r.get? s.key = none → r'.stored s.key = some 0)) ∧
    (old.InRange → (s.process r []).1 = .ok ⟨0, 0⟩) ∧
    ((∀ k p, r.stored k = some p → p.InRange) → ∀ k p, r'.stored k = some p → p.InRange) := by
  intro all excess evicted d old answer s' r'
  have hevicted : s.window.displaced events = evicted := (s.window.forecast_eq_displaced events).symm
  have hd : s.window.change events = d := by
    rw [Window.change_eq_of_displaced, hevicted]
  refine ⟨?_, ?_, ?_, s.process_nil hr, s.process_stored_inRange hr events⟩
  · rw [← hd]
    exact s.process_ok_iff hr events
  · intro o ho
    obtain ⟨houtcome, hs', hc⟩ := s.process_of_ok hr ho
    rw [hevicted] at houtcome
    rw [hd] at hc
    refine ⟨houtcome, hc, ?_, congrArg (·.window.parked) hs', congrArg (·.window.capacity) hs',
      congrArg (·.key) hs'⟩
    calc s'.window.residents
        = (s.window.extend events).residents := congrArg (·.window.residents) hs'
      _ = all.drop excess := by rw [Window.residents_extend, List.rtake, List.length_append]
  · intro e he
    obtain ⟨hoverflow, hend⟩ := s.process_of_error hr he
    have hs' : s' = s := congrArg Prod.fst hend
    have hr' : r' = (r.getOrCreate s.key).2 := congrArg Prod.snd hend
    have hc : r.ChangesOnly r' s.key old := hr' ▸ Registry.changesOnly_getOrCreate hr s.key
    refine ⟨hoverflow, hs', hc, fun h hh => hc.state_eq hh, ?_, ?_⟩
    · intro h hg
      rw [hr', Registry.getOrCreate_of_get? hg]
    · intro hg
      rw [hc.stored_eq]
      simp only [old, Registry.stored_of_get?_none hg, Option.getD_none]

/-- Two keys share an accumulator that was set from outside and does not agree with the window. A
    batch that takes the total one down is taken, one that takes it up by two is refused. -/
theorem process_all_or_nothing_of_shared :
    let s : Tracker := ⟨(Window.empty 2 Nat.two_pos).extend [5, -4], meanKey⟩
    let r : Registry := ⟨⟨[⟨greatest, 7⟩]⟩, [("peer", ⟨0⟩), (meanKey, ⟨0⟩)]⟩
    (s.process r [4]).1 = .ok ⟨1, 1⟩ ∧
    (s.process r [4]).2.1.window.residents = [-4, 4] ∧
    (s.process r [4]).2.2.stored meanKey = some ⟨greatest - 1, 7⟩ ∧
    (s.process r [7]).1 = .error (.overflow 1) ∧ (s.process r [7]).2 = (s, r) := by
  intro s r
  have hr : r.Backed := by
    intro k h hg
    have hh : h = ⟨0⟩ := by
      simp only [r, Registry.get?, List.lookup_cons, List.lookup_nil] at hg
      grind
    rw [hh]
    decide
  obtain ⟨hok, htaken, -⟩ := s.process_all_or_nothing hr [4]
  obtain ⟨o, ho⟩ := hok.2 (by decide +kernel)
  obtain ⟨rfl, hc, hres, -⟩ := htaken o ho
  obtain ⟨hok', -, hrefused, -⟩ := s.process_all_or_nothing hr [7]
  cases hp : (s.process r [7]).1 with
  | ok o => exact absurd (hok'.1 ⟨o, hp⟩) (by decide +kernel)
  | error e =>
    obtain ⟨rfl, hs, -, -, hkept, -⟩ := hrefused e hp
    exact ⟨ho, hres, hc.stored_eq, rfl, Prod.ext hs (hkept ⟨0⟩ rfl)⟩

end Tracker

end WindowedMean
