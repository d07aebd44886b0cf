import WindowedMean.Proofs.History

/-! Asking before a batch enters.

    A try shows the events that would leave, and lets the batch in only if they are admitted. What it
    shows is worked out in one piece; what leaves afterwards leaves one event at a time:

        shown     the first of residents and batch, as many as there would be too many
        leaves    the oldest, again and again, whenever there is one too many

    Both are the same list, also where a batch is longer than the window and displaces members of its
    own. So a batch that is admitted does what it would have done unasked, and one that is refused
    has done nothing. -/

namespace WindowedMean.Window
variable {ε α : Type} {vs : List Int}

/-- The check decides on what the batch is about to displace, and on nothing else. -/
theorem tryAll_eq (w : Window) (vs : List Int) (check : List Int → Except ε α) :
    w.tryAll vs check =
      match check (w.enqueueAll vs).1 with
      | .error e => .error e
      | .ok a => .ok (a, w.enqueueAll vs) := by
  rw [tryAll, forecast_eq_displaced]
  rfl

theorem tryAll_of_ok (w : Window) {check : List Int → Except ε α} {a : α}
    (h : check (w.enqueueAll vs).1 = .ok a) : w.tryAll vs check = .ok (a, w.enqueueAll vs) := by
  rw [tryAll_eq, h]

theorem tryAll_of_error (w : Window) {check : List Int → Except ε α} {e : ε}
    (h : check (w.enqueueAll vs).1 = .error e) : w.tryAll vs check = .error e := by
  rw [tryAll_eq, h]

/-- As a request: a batch enters and is answered as by `enqueueAll`, or it comes back. -/
theorem perform_tryAll (w : Window) (vs : List Int) (check : List Int → Bool) :
    w.perform (.tryAll vs check) =
      if check (w.enqueueAll vs).1 then (.evicted (w.enqueueAll vs).1, (w.enqueueAll vs).2)
      else (.refused (w.enqueueAll vs).1, w) := by
  rw [perform, tryAll_eq]
  by_cases h : check (w.enqueueAll vs).1
  · simp only [if_pos h]
  · simp only [if_neg h]

/-- Whatever was asked of a window before: what a check is shown is what `enqueueAll` would displace,
    in the same order. If the check admits it, then the answer, the residents and the parked events
    are those of `enqueueAll`; if not, the refusal comes back as it is, and the window is as it was. -/
theorem tryAll_foretells {capacity : Nat} (hc : 0 < capacity) (ops : List Op) (vs : List Int) :
    let w := ((History.start capacity hc).run ops).window
    w.forecast vs = (w.enqueueAll vs).1 ∧
    (∀ (ε α : Type) (check : List Int → Except ε α),
      (∀ a, check (w.enqueueAll vs).1 = .ok a → w.tryAll vs check = .ok (a, w.enqueueAll vs)) ∧
      ∀ e, check (w.enqueueAll vs).1 = .error e → w.tryAll vs check = .error e) ∧
    ∀ check : List Int → Bool,
      w.perform (.tryAll vs check) =
        if check (w.enqueueAll vs).1 then (.evicted (w.enqueueAll vs).1, (w.enqueueAll vs).2)
        else (.refused (w.enqueueAll vs).1, w) := by
  intro w
  refine ⟨w.forecast_eq_displaced vs, ?_, w.perform_tryAll vs⟩
  intro ε α check
  exact ⟨fun a h => w.tryAll_of_ok h, fun e h => w.tryAll_of_error h⟩

/-- The window holds 3 and 4, and the batch is longer than it. One check admits what it is shown, the
    other refuses it. -/
theorem tryAll_foretells_of_long :
    let w := ((History.start 2 Nat.two_pos).run [.enqueueAll [1, 2, 3], .offer 4]).window
    w.tryAll [5, 6, 7] (fun out => if out = [3, 4, 5] then .ok 9 else .error out) =
      .ok (9, w.enqueueAll [5, 6, 7]) ∧
    (w.enqueueAll [5, 6, 7]).2.residents = [6, 7] ∧ (w.enqueueAll [5, 6, 7]).2.parked = [2] ∧
    w.perform (.tryAll [5, 6, 7] (·.length < 3)) = (.refused [3, 4, 5], w) := by
  obtain ⟨-, htry, hperform⟩ :=
    tryAll_foretells Nat.two_pos [.enqueueAll [1, 2, 3], .offer 4] [5, 6, 7]
  exact ⟨(htry _ _ _).1 9 (by decide), by decide, by decide, hperform (·.length < 3)⟩

/-- More events than the capacity would tell the two lists apart: the first is what would be shown of
    them, the second what leaves when nothing enters. -/
example : ([1, 2] : List Int).take (2 + 0 - 1) = [1] ∧ (pushAll 1 [1, 2] []).1 = [] := by decide

end WindowedMean.Window
