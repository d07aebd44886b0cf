import WindowedMean.Proofs.Following

/-! When a batch is refused.

    A batch takes the window from its residents to its *prospect*, the last of residents and batch,
    and the accumulator from the sum of the one to the sum of the other. Two numbers have to be in
    range for that, the sum that is to come and the change that leads to it:

        residents  ──  batch  ──▶  prospect
          sum     +   change   =     sum

    Nothing in between counts: a batch may be longer than the window, and its sums may leave the
    range and come back. But the change has to be in range by itself. Where the sum would swing from
    one end of the range to the other it is not, and the batch is refused though the sum to come
    would have been in range (`process_swing_refused`). Between sums of one sign no batch is. -/

namespace WindowedMean

/-- Between two integers of one sign in range the difference is in range. -/
theorem fits_sub_of_sign {a b : Int} (ha : Fits a) (hb : Fits b) (h : 0 ≤ a ↔ 0 ≤ b) :
    Fits (b - a) := by
  simp only [Fits, least, greatest] at ha hb ⊢
  omega

namespace Window

/-- What a window would hold after a batch. -/
def prospect (w : Window) (events : List Int) : List Int := (w.residents ++ events).rtake w.capacity

theorem length_prospect (w : Window) (events : List Int) :
    (w.prospect events).length = min w.capacity (w.residents.length + events.length) := by
  rw [prospect, length_rtake, List.length_append]

theorem length_displaced (w : Window) (events : List Int) :
    (w.displaced events).length =
      (w.residents ++ events).length - (w.prospect events).length := by
  have h := congrArg List.length (w.displaced_append_residents events)
  rw [residents_extend, List.length_append] at h
  rw [prospect, ← h]
  omega

theorem change_eq (w : Window) (events : List Int) :
    w.change events = ⟨(w.prospect events).sum - w.residents.sum,
      (w.prospect events).length - w.residents.length⟩ := by
  rw [change, residents_extend]
  rfl

/-- A window whose accumulator holds its residents takes a batch if the sum and the number to come
    are in range, and the change of the sum is. The change of the number then is too. -/
theorem admits_iff (w : Window) (events : List Int) :
    w.Admits (Snapshot.ofEvents w.residents) events ↔
      Fits (w.prospect events).sum ∧ Fits (w.prospect events).length ∧
        Fits ((w.prospect events).sum - w.residents.sum) := by
  have hnew : Snapshot.ofEvents w.residents + w.change events =
      ⟨(w.prospect events).sum, (w.prospect events).length⟩ := by
    rw [change, residents_extend, add_sub_cancel]
    rfl
  have hgrow : w.residents.length ≤ (w.prospect events).length := by
    have := w.length_le
    rw [length_prospect]
    omega
  rw [Admits, hnew, change_eq]
  simp only [Snapshot.InRange]
  constructor
  · rintro ⟨⟨hchange, -⟩, hsum, hnumber⟩
    exact ⟨hsum, hnumber, hchange⟩
  · rintro ⟨hsum, hnumber, hchange⟩
    refine ⟨⟨hchange, ?_⟩, hsum, hnumber⟩
    simp only [Fits, least, greatest] at hnumber ⊢
    omega

end Window

namespace Node
variable {n : Node} {seen : Bool}

theorem Follows.refused_iff (hn : n.Follows seen) (events : List Int) :
    (n.process events).1 = .error (.overflow events.length) ↔
      ¬ (Fits (n.window.prospect events).sum ∧ Fits (n.window.prospect events).length ∧
        Fits ((n.window.prospect events).sum - n.window.residents.sum)) := by
  rw [← n.window.admits_iff events]
  rcases hn.process_cases events with ⟨ha, hr, -⟩ | ⟨ha, hr, -⟩
  · simp [ha, hr]
  · simp [ha, hr]

theorem Follows.taken (hn : n.Follows seen) {events : List Int}
    (ha : n.window.Admits (Snapshot.ofEvents n.window.residents) events) :
    (n.process events).1 = .ok ⟨events.length,
      (n.window.residents ++ events).length - (n.window.prospect events).length⟩ ∧
    (n.process events).2.window.residents = n.window.prospect events ∧
    (n.process events).2.fetch meanKey =
      some ⟨(n.window.prospect events).sum, (n.window.prospect events).length⟩ := by
  rcases hn.process_cases events with ⟨-, hr, hw, hnext⟩ | ⟨hna, -⟩
  · have hres : (n.process events).2.window.residents = n.window.prospect events := by
      rw [hw, Window.residents_extend]
      rfl
    refine ⟨?_, hres, ?_⟩
    · rw [hr, Window.length_displaced]
    · rw [hnext.fetch_eq, hres]
      rfl
  · exact absurd ha hna

/-- Batches one after the other. -/
def processAll (n : Node) (batches : List (List Int)) : Node :=
  batches.foldl (fun n events => (n.process events).2) n

/-- What every batch keeps: the accumulator follows the window, and the sum of the residents is in
    range. -/
structure Steady (n : Node) (capacity : Nat) : Prop where
  follows : ∃ seen, n.Follows seen
  capacity_eq : n.window.capacity = capacity
  fits : Fits n.window.residents.sum

theorem steady_ofWindow (id : Nat) {capacity : Nat} (h : 0 < capacity) :
    (ofWindow id (.empty capacity h)).Steady capacity :=
  ⟨⟨false, follows_ofWindow id h⟩, rfl, fits_zero⟩

theorem Steady.process {capacity : Nat} (hn : n.Steady capacity) (events : List Int) :
    (n.process events).2.Steady capacity := by
  obtain ⟨⟨seen, hfollows⟩, hcapacity, hfits⟩ := hn
  rcases hfollows.process_cases events with ⟨ha, -, hw, hnext⟩ | ⟨-, -, hw, hnext⟩
  · obtain ⟨hsum, -, -⟩ := (n.window.admits_iff events).1 ha
    refine ⟨⟨true, hnext⟩, by rw [hw, Window.capacity_extend, hcapacity], ?_⟩
    rw [hw, Window.residents_extend]
    exact hsum
  · exact ⟨⟨true, hnext⟩, by rw [hw, hcapacity], by rwa [hw]⟩

theorem Steady.processAll {capacity : Nat} : ∀ {n : Node} (batches : List (List Int)),
    n.Steady capacity → (n.processAll batches).Steady capacity
  | _, [], hn => hn
  | _, events :: later, hn => Steady.processAll later (hn.process events)

/-- A batch is refused exactly if the sum or the number of the residents to come is out of range, or
    the change of the sum is. Otherwise it is taken, whatever its sums were in between. Where the sum
    keeps its sign, the sum and the number to come decide alone. -/
theorem process_overflow_iff (id : Nat) {capacity : Nat} (h : 0 < capacity)
    (batches : List (List Int)) (events : List Int) :
    let n := (ofWindow id (.empty capacity h)).processAll batches
    let next := (n.window.residents ++ events).rtake capacity
    ((n.process events).1 = .error (.overflow events.length) ↔
      ¬ (Fits next.sum ∧ Fits next.length ∧ Fits (next.sum - n.window.residents.sum))) ∧
    (Fits next.sum → Fits next.length → Fits (next.sum - n.window.residents.sum) →
      (n.process events).1 =
        .ok ⟨events.length, (n.window.residents ++ events).length - next.length⟩ ∧
      (n.process events).2.window.residents = next ∧
      (n.process events).2.fetch meanKey = some ⟨next.sum, next.length⟩) ∧
    ((0 ≤ n.window.residents.sum ↔ 0 ≤ next.sum) →
      ((n.process events).1 = .error (.overflow events.length) ↔
        ¬ (Fits next.sum ∧ Fits next.length))) := by
  intro n next
  obtain ⟨⟨seen, hn⟩, hcapacity, hfits⟩ := (steady_ofWindow id h).processAll batches
  have hnext : n.window.prospect events = next := by
    rw [Window.prospect, hcapacity]
  have hrefused := hn.refused_iff events
  rw [hnext] at hrefused
  refine ⟨hrefused, ?_, ?_⟩
  · intro hsum hnumber hchange
    have htaken := hn.taken ((n.window.admits_iff events).2
      (by rw [hnext]; exact ⟨hsum, hnumber, hchange⟩))
    rw [hnext] at htaken
    exact htaken
  · intro hsign
    rw [hrefused, not_iff_not]
    constructor
    · rintro ⟨hsum, hnumber, -⟩
      exact ⟨hsum, hnumber⟩
    · rintro ⟨hsum, hnumber⟩
      exact ⟨hsum, hnumber, fits_sub_of_sign hfits hsum hsign⟩

/-- The sums of the third batch are far out of range on the way, and it is taken. In its place, one
    that displaces `-1` by `least` is refused: the sum keeps its sign and leaves the range. -/
theorem process_overflow_iff_of_netting_out :
    (((ofWindow 3 (.empty 2 Nat.two_pos)).processAll [[least, 5], [-1, -9]]).process
      [greatest, greatest, -3, 1]).1 = .ok ⟨4, 4⟩ ∧
    (((ofWindow 3 (.empty 2 Nat.two_pos)).processAll [[least, 5], [-1, -9]]).process [least]).1 =
      .error (.overflow 1) := by
  refine ⟨?_, ?_⟩
  · exact ((process_overflow_iff 3 Nat.two_pos [[least, 5], [-1, -9]] [greatest, greatest, -3, 1]).2.1
      (by decide +kernel) (by decide +kernel) (by decide +kernel)).1
  · exact ((process_overflow_iff 3 Nat.two_pos [[least, 5], [-1, -9]] [least]).2.2
      (by decide +kernel)).2 (by decide +kernel)

/-- From `least` to `greatest` the sum would stay in range, but its change is out of it. -/
theorem process_swing_refused :
    ((ofWindow 0 (.empty 1 Nat.one_pos)).processAll [[least]]).window.residents = [least] ∧
    (((ofWindow 0 (.empty 1 Nat.one_pos)).processAll [[least]]).process [greatest]).1 =
      .error (.overflow 1) ∧
    ([least] ++ [greatest]).rtake 1 = [greatest] ∧
    Fits ([greatest] : List Int).sum ∧ Fits ([greatest] : List Int).length := by
  decide +kernel

end Node

end WindowedMean
