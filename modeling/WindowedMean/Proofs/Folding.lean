import WindowedMean.Proofs.Bindings
import WindowedMean.Node

/-! What one batch does to a tracker and its registry, whatever state they are in.

    The batch is *taken* if its exact change and the state it leads to are both in range; otherwise
    it is *refused* and leaves nothing behind but a bound key. There is no third ending:

                 window        under the key      under other keys
        taken    extended      old + change       —
        refused  —             old                —

    All that is said about runs of batches further on is said through `process_cases`. -/

namespace WindowedMean

/-- What a batch adds to the sum and the number of a window's residents. -/
def Window.change (w : Window) (events : List Int) : Snapshot :=
  Snapshot.ofEvents (w.extend events).residents - Snapshot.ofEvents w.residents

/-- A batch is taken: its change and the state it leads to are in range. -/
def Window.Admits (w : Window) (old : Snapshot) (events : List Int) : Prop :=
  (w.change events).InRange ∧ (old + w.change events).InRange

theorem Window.netChange_forecast (w : Window) (events : List Int) :
    netChange events (w.forecast events) =
      if (w.change events).InRange then some (w.change events) else none := by
  rw [netChange_eq, w.forecast_eq_displaced, exactChange_displaced, change]

namespace Tracker
variable {r : Registry}

theorem settle_of_admits {r : Registry} {h : Handle} {w : Window} {events : List Int}
    (ha : w.Admits (r.state h) events) :
    settle r h events (w.forecast events) =
      .ok (r.write h (r.state h + w.change events)) := by
  rw [settle, w.netChange_forecast, if_pos ha.1]
  simp only [Registry.add_of_inRange ha.2]

theorem settle_of_not_admits {r : Registry} {h : Handle} {w : Window} {events : List Int}
    (ha : ¬ w.Admits (r.state h) events) :
    settle r h events (w.forecast events) = .error (.overflow events.length) := by
  rw [settle, w.netChange_forecast]
  by_cases hc : (w.change events).InRange
  · have hn : ¬ (r.state h + w.change events).InRange := fun hn => ha ⟨hc, hn⟩
    rw [if_pos hc]
    simp only [Registry.add_of_not_inRange hn]
  · rw [if_neg hc]

theorem process_of_settle_ok {s : Tracker} {events : List Int} {r' : Registry}
    (h : settle (r.getOrCreate s.key).2 (r.getOrCreate s.key).1 events
      (s.window.forecast events) = .ok r') :
    s.process r events = (.ok ⟨events.length, (s.window.displaced events).length⟩,
      { s with window := s.window.extend events }, r') := by
  simp only [process, Window.tryAll, h]
  rw [s.window.forecast_eq_displaced]

theorem process_of_settle_error {s : Tracker} {events : List Int} {e : TrackerError}
    (h : settle (r.getOrCreate s.key).2 (r.getOrCreate s.key).1 events
      (s.window.forecast events) = .error e) :
    s.process r events = (.error e, s, (r.getOrCreate s.key).2) := by
  simp only [process, Window.tryAll, h]

/-- A batch is taken or refused. Either way no accumulator but the tracker's own is different, and the
    window is only where the batch is taken. -/
theorem process_changesOnly (s : Tracker) (hr : r.Backed) (events : List Int) :
    (s.window.Admits ((r.stored s.key).getD 0) events ∧
      ∃ r', s.process r events =
          (.ok ⟨events.length, (s.window.displaced events).length⟩,
            { s with window := s.window.extend events }, r') ∧
        r.ChangesOnly r' s.key ((r.stored s.key).getD 0 + s.window.change events)) ∨
    (¬ s.window.Admits ((r.stored s.key).getD 0) events ∧
      s.process r events = (.error (.overflow events.length), s, (r.getOrCreate s.key).2)) := by
  have hold := Registry.state_getOrCreate hr s.key
  by_cases ha : s.window.Admits ((r.stored s.key).getD 0) events
  · refine Or.inl ⟨ha, _, process_of_settle_ok (settle_of_admits (hold ▸ ha)), ?_⟩
    rw [hold]
    exact (Registry.changesOnly_getOrCreate hr s.key).write (Registry.get?_getOrCreate r s.key) _
  · exact Or.inr ⟨ha, process_of_settle_error (settle_of_not_admits (hold ▸ ha))⟩

/-- The same by key. -/
theorem process_cases (s : Tracker) (hs : r.Sound) (events : List Int) :
    (s.window.Admits ((r.stored s.key).getD 0) events ∧
      ∃ r', s.process r events =
          (.ok ⟨events.length, (s.window.displaced events).length⟩,
            { s with window := s.window.extend events }, r') ∧
        r'.Sound ∧ ∀ k, r'.stored k = if k = s.key
          then some ((r.stored s.key).getD 0 + s.window.change events) else r.stored k) ∨
    (¬ s.window.Admits ((r.stored s.key).getD 0) events ∧
      ∃ r', s.process r events = (.error (.overflow events.length), s, r') ∧
        r'.Sound ∧ ∀ k, r'.stored k = if k = s.key
          then some ((r.stored s.key).getD 0) else r.stored k) := by
  rcases s.process_changesOnly hs.backed events with ⟨ha, r', hp, hc⟩ | ⟨hna, hp⟩
  · exact Or.inl ⟨ha, r', hp, hc.sound hs, hc.stored hs⟩
  · have hc := Registry.changesOnly_getOrCreate hs.backed s.key
    exact Or.inr ⟨hna, _, hp, hc.sound hs, hc.stored hs⟩

theorem sound_process (s : Tracker) (hs : r.Sound) (events : List Int) :
    (s.process r events).2.2.Sound := by
  rcases s.process_cases hs events with ⟨-, r', hp, hs', -⟩ | ⟨-, r', hp, hs', -⟩ <;> rw [hp] <;>
    exact hs'

end Tracker

end WindowedMean
