import WindowedMean.Proofs.Atomicity

/-! One batch, or the same events in several.

    A row of batches leads from window to window, and each batch changes the accumulator by what the
    window then holds less what it held. Over the row all but the ends cancel:

        w  ── a ──▶  w.extend a  ── b ──▶  (w.extend a).extend b
        └──────────────── a ++ b ────────────────▶

    Neither does it matter that the second batch displaces members of the first which the whole
    would have displaced as its own. So a row of batches that are all taken ends where the whole
    would, accumulator and all, with as many events processed and evicted. It can happen only that
    the whole is not taken: its change is one step of the accumulator, and may be out of range where
    the changes of the parts are not. -/

namespace WindowedMean

/-- The changes of two batches, one after the other, are the change of both at once. -/
theorem Window.change_append (w : Window) (a b : List Int) :
    w.change (a ++ b) = w.change a + (w.extend a).change b := by
  rw [change, change, change, extend_extend]
  abel

namespace Tracker
variable {r : Registry} {h : Handle} {s : Tracker}

/-- Batches one after the other: what became of each, and the end. -/
def processEach (s : Tracker) (r : Registry) :
    List (List Int) → List (Except TrackerError Outcome) × Tracker × Registry
  | [] => ([], s, r)
  | events :: later =>
    let (o, s', r') := s.process r events
    let (os, ending) := s'.processEach r' later
    (o :: os, ending)

theorem processEach_cons (s : Tracker) (r : Registry) (events : List Int)
    (later : List (List Int)) : s.processEach r (events :: later) =
      ((s.process r events).1 ::
          ((s.process r events).2.1.processEach (s.process r events).2.2 later).1,
        ((s.process r events).2.1.processEach (s.process r events).2.2 later).2) := rfl

/-! ### A key that is bound -/

theorem process_of_admits (hg : r.get? s.key = some h) {events : List Int}
    (ha : s.window.Admits (r.state h) events) :
    s.process r events = (.ok ⟨events.length, (s.window.displaced events).length⟩,
      { s with window := s.window.extend events },
      r.write h (r.state h + s.window.change events)) := by
  refine process_of_settle_ok ?_
  rw [Registry.getOrCreate_of_get? hg]
  exact settle_of_admits ha

theorem admits_of_ok (hg : r.get? s.key = some h) {events : List Int} {o : Outcome}
    (ho : (s.process r events).1 = .ok o) : s.window.Admits (r.state h) events := by
  by_contra ha
  have hsettle := settle_of_not_admits ha
  rw [process_of_settle_error (by rw [Registry.getOrCreate_of_get? hg]; exact hsettle)] at ho
  cases ho

/-- A row of batches that are all taken leads to where the whole leads if it is taken. The state it
    ends in is in range, unless the row is empty. -/
theorem processEach_of_ok (hg : r.get? s.key = some h) (hh : r.accumulators.Has h)
    {parts : List (List Int)} {os : List Outcome}
    (hall : (s.processEach r parts).1 = os.map .ok) :
    (s.processEach r parts).2 = ({ s with window := s.window.extend parts.flatten },
        r.write h (r.state h + s.window.change parts.flatten)) ∧
      (os.map (·.processed)).sum = parts.flatten.length ∧
      (os.map (·.evicted)).sum = (s.window.displaced parts.flatten).length ∧
      (parts ≠ [] → (r.state h + s.window.change parts.flatten).InRange) := by
  induction parts generalizing s r os with
  | nil =>
    obtain rfl := List.map_eq_nil_iff.1 hall.symm
    have hnone : s.window.change [] = 0 := by rw [Window.change, Window.extend_nil, sub_self]
    refine ⟨?_, rfl, rfl, fun hne => absurd rfl hne⟩
    rw [List.flatten_nil, Window.extend_nil, hnone, add_zero, Registry.write_state hh]
    rfl
  | cons events later ih =>
    rw [processEach_cons] at hall ⊢
    obtain ⟨o, os, rfl, ho, hlater⟩ := List.map_eq_cons_iff.1 hall.symm
    have ha := admits_of_ok hg ho.symm
    rw [process_of_admits hg ha] at ho hlater ⊢
    obtain rfl := Except.ok.inj ho
    obtain ⟨hend, hprocessed, hevicted, hrange⟩ :=
      ih (s := { s with window := s.window.extend events })
        (r := r.write h (r.state h + s.window.change events)) hg (Accumulators.has_set hh _ _)
        hlater.symm
    -- The first batch wrote what the second one found, so only the last write is left.
    rw [Registry.state_write_self hh, add_assoc, ← Window.change_append] at hend hrange
    rw [Registry.write_write, Window.extend_extend] at hend
    refine ⟨hend, ?_, ?_, ?_⟩
    · rw [List.map_cons, List.sum_cons, hprocessed, List.flatten_cons, List.length_append]
    · rw [List.map_cons, List.sum_cons, hevicted, List.flatten_cons, ← Window.displaced_append,
        List.length_append]
    · intro _
      by_cases hl : later = []
      · rw [hl, List.flatten_cons, List.flatten_nil, List.append_nil]
        exact ha.2
      · exact hrange hl

/-! ### Any key -/

/-- It makes no difference to a batch whether the accumulator is there already or made for it. -/
theorem process_getOrCreate (s : Tracker) (r : Registry) (events : List Int) :
    s.process (r.getOrCreate s.key).2 events = s.process r events := by
  have hagain := Registry.getOrCreate_of_get? (Registry.get?_getOrCreate r s.key)
  simp only [process, hagain]

theorem processEach_getOrCreate (s : Tracker) (r : Registry) {parts : List (List Int)}
    (hne : parts ≠ []) : s.processEach (r.getOrCreate s.key).2 parts = s.processEach r parts := by
  cases parts with
  | nil => exact absurd rfl hne
  | cons events later => rw [processEach_cons, processEach_cons, process_getOrCreate]

/-- Let a batch be cut into parts, some of them empty maybe, and all parts be taken one after the
    other, whatever the accumulator holds. The whole is taken exactly if its change is in range, and
    then it leads to the same window and the same accumulators, and what it processes and evicts is
    what the parts do. -/
theorem process_flatten (s : Tracker) (hr : r.Backed) {parts : List (List Int)} (hne : parts ≠ [])
    {os : List Outcome} (hall : (s.processEach r parts).1 = os.map .ok) :
    ((∃ o, (s.process r parts.flatten).1 = .ok o) ↔ (s.window.change parts.flatten).InRange) ∧
    ∀ o, (s.process r parts.flatten).1 = .ok o →
      (s.process r parts.flatten).2 = (s.processEach r parts).2 ∧
      o.processed = (os.map (·.processed)).sum ∧ o.evicted = (os.map (·.evicted)).sum := by
  rw [← process_getOrCreate, ← processEach_getOrCreate s r hne] at *
  have hg := Registry.get?_getOrCreate r s.key
  have hh := (Registry.changesOnly_getOrCreate hr s.key).backed hg
  generalize (r.getOrCreate s.key).2 = r' at *
  generalize (r.getOrCreate s.key).1 = h at *
  obtain ⟨hend, hprocessed, hevicted, hrange⟩ := processEach_of_ok hg hh hall
  refine ⟨⟨?_, ?_⟩, ?_⟩
  · rintro ⟨o, ho⟩
    exact (admits_of_ok hg ho).1
  · intro hchange
    rw [process_of_admits hg ⟨hchange, hrange hne⟩]
    exact ⟨_, rfl⟩
  · intro o ho
    have hp := process_of_admits hg (admits_of_ok hg ho)
    rw [hp] at ho ⊢
    obtain rfl := Except.ok.inj ho
    exact ⟨hend.symm, hprocessed.symm, hevicted.symm⟩

/-- The accumulator was set from outside. One part is longer than the window, one is empty, and the
    last displaces what the first has brought. -/
theorem process_flatten_of_three :
    let s : Tracker := ⟨(Window.empty 2 Nat.two_pos).extend [1, 2], meanKey⟩
    let r : Registry := ⟨⟨[⟨10, 7⟩]⟩, [(meanKey, ⟨0⟩)]⟩
    (s.process r [3, 4, 5, 6]).1 = .ok ⟨4, 4⟩ ∧
    (s.processEach r [[3, 4, 5], [], [6]]).1 = [⟨3, 3⟩, ⟨0, 0⟩, ⟨1, 1⟩].map .ok ∧
    (s.process r [3, 4, 5, 6]).2 = (s.processEach r [[3, 4, 5], [], [6]]).2 ∧
    (s.process r [3, 4, 5, 6]).2.2.stored meanKey = some ⟨18, 7⟩ := by
  intro s r
  have hr : r.Backed := by
    intro k h hg
    have hh : h = ⟨0⟩ := by
      simp only [r, Registry.get?, List.lookup_cons, List.lookup_nil] at hg
      grind
    rw [hh]
    decide
  have hparts : (s.processEach r [[3, 4, 5], [], [6]]).1 = [⟨3, 3⟩, ⟨0, 0⟩, ⟨1, 1⟩].map .ok := by
    decide +kernel
  obtain ⟨hiff, hsame⟩ := s.process_flatten hr (List.cons_ne_nil _ _) hparts
  obtain ⟨o, ho⟩ := hiff.2 (by decide +kernel)
  obtain ⟨hend, hprocessed, hevicted⟩ := hsame o ho
  obtain ⟨p, e⟩ := o
  obtain ⟨rfl, rfl⟩ : p = 4 ∧ e = 4 := ⟨hprocessed, hevicted⟩
  exact ⟨ho, hparts, hend, by decide +kernel⟩

/-- Halfway and then the other half is taken; all the way at once is not. -/
example :
    let s : Tracker := ⟨(Window.empty 1 Nat.one_pos).extend [least], meanKey⟩
    let r : Registry := ⟨⟨[⟨least, 1⟩]⟩, [(meanKey, ⟨0⟩)]⟩
    (s.processEach r [[-1], [greatest - 1]]).1 = [.ok ⟨1, 1⟩, .ok ⟨1, 1⟩] ∧
      (s.process r [-1, greatest - 1]).1 = .error (.overflow 2) := by
  decide +kernel

end Tracker

end WindowedMean
