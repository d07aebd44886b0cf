import Mathlib.Data.List.DropRight
import WindowedMean.Window

/-! A window keeps the last events of all it was given, and hands the others back in their order.

    Let `l` be the residents followed by a batch. Event by event, the oldest leaves while there are
    too many; over the whole batch this comes to one cut of `l`, `capacity` events before its end:

        l.rdrop capacity  |  l.rtake capacity
        leaves               stays

    So what `forecast` reads off without a change is what leaves, and a window that has taken in
    several batches is the window that has taken in all of them at once. -/

namespace WindowedMean

theorem rdrop_append_rtake {α : Type} (n : Nat) (l : List α) : l.rdrop n ++ l.rtake n = l :=
  List.take_append_drop _ l

theorem length_rtake {α : Type} (n : Nat) (l : List α) : (l.rtake n).length = min n l.length := by
  rw [List.rtake, List.length_drop]
  omega

theorem rtake_of_length_le {α : Type} {n : Nat} {l : List α} (h : l.length ≤ n) : l.rtake n = l := by
  rw [List.rtake, Nat.sub_eq_zero_of_le h, List.drop_zero]

theorem rdrop_of_length_le {α : Type} {n : Nat} {l : List α} (h : l.length ≤ n) :
    l.rdrop n = [] := by
  rw [List.rdrop, Nat.sub_eq_zero_of_le h, List.take_zero]

/-- Cutting `a` first and then what has grown out of it is cutting once, at the end. -/
theorem rtake_rtake_append {α : Type} (n : Nat) (a b : List α) :
    (a.rtake n ++ b).rtake n = (a ++ b).rtake n := by
  have hk : a.length - n ≤ a.length := Nat.sub_le ..
  have hm : (a ++ b).length - n = (a.length - n) + ((a.rtake n ++ b).length - n) := by
    simp only [List.length_append, length_rtake]
    omega
  calc (a.rtake n ++ b).rtake n
      = ((a ++ b).drop (a.length - n)).drop ((a.rtake n ++ b).length - n) := by
        rw [List.drop_append_of_le_length hk]
        rfl
    _ = (a ++ b).rtake n := by
        rw [List.drop_drop, ← hm]
        rfl

/-- What left earlier and what leaves now is what would have left at once. -/
theorem rdrop_append_rdrop {α : Type} (n : Nat) (a b : List α) :
    a.rdrop n ++ (a.rtake n ++ b).rdrop n = (a ++ b).rdrop n := by
  have h₁ := rdrop_append_rtake n (a ++ b)
  have h₂ := rdrop_append_rtake n (a.rtake n ++ b)
  rw [rtake_rtake_append] at h₂
  refine (List.append_left_inj ((a ++ b).rtake n)).1 ?_
  rw [h₁, List.append_assoc, h₂, ← List.append_assoc, rdrop_append_rtake]

namespace Window

/-- Shedding cuts the buffer once. -/
theorem shed_eq (capacity : Nat) (buf : List Int) :
    shed capacity buf = (buf.rdrop capacity, buf.rtake capacity) := by
  induction buf with
  | nil => rw [shed, List.rdrop_nil, List.rtake_nil]
  | cons old rest ih =>
    rw [shed]
    split
    · rename_i h
      have hk : (old :: rest).length - capacity = (rest.length - capacity) + 1 := by
        simp only [List.length_cons] at h ⊢
        omega
      have hd : (old :: rest).rdrop capacity = old :: rest.rdrop capacity := by
        rw [List.rdrop, hk]
        rfl
      have ht : (old :: rest).rtake capacity = rest.rtake capacity := by
        rw [List.rtake, hk]
        rfl
      rw [ih, hd, ht]
    · rename_i h
      rw [rdrop_of_length_le (Nat.le_of_not_lt h), rtake_of_length_le (Nat.le_of_not_lt h)]

/-- Pushing a whole batch cuts residents and batch once, however often the buffer was shed. -/
theorem pushAll_eq {capacity : Nat} {buf : List Int} (h : buf.length ≤ capacity) (vs : List Int) :
    pushAll capacity buf vs = ((buf ++ vs).rdrop capacity, (buf ++ vs).rtake capacity) := by
  induction vs generalizing buf with
  | nil => rw [pushAll, List.append_nil, rdrop_of_length_le h, rtake_of_length_le h]
  | cons v vs ih =>
    have hkept : ((buf ++ [v]).rtake capacity).length ≤ capacity := by
      rw [length_rtake]
      exact Nat.min_le_left ..
    rw [pushAll, shed_eq]
    simp only
    rw [ih hkept, rdrop_append_rdrop, rtake_rtake_append, List.append_assoc]
    rfl

theorem displaced_eq (w : Window) (vs : List Int) :
    w.displaced vs = (w.residents ++ vs).rdrop w.capacity := by
  rw [displaced, pushAll_eq w.length_le]

@[simp] theorem residents_extend (w : Window) (vs : List Int) :
    (w.extend vs).residents = (w.residents ++ vs).rtake w.capacity :=
  congrArg Prod.snd (pushAll_eq w.length_le vs)

@[simp] theorem capacity_extend (w : Window) (vs : List Int) : (w.extend vs).capacity = w.capacity :=
  rfl

/-- What is read off in advance is what leaves. -/
theorem forecast_eq_displaced (w : Window) (vs : List Int) : w.forecast vs = w.displaced vs := by
  rw [displaced_eq, forecast, List.rdrop, List.length_append]

theorem extend_nil (w : Window) : w.extend [] = w := Window.ext rfl rfl rfl

/-- A batch after a batch is both at once. -/
theorem extend_extend (w : Window) (a b : List Int) :
    (w.extend a).extend b = w.extend (a ++ b) := by
  refine Window.ext rfl ?_ rfl
  rw [residents_extend, residents_extend, residents_extend, capacity_extend, rtake_rtake_append,
    List.append_assoc]

theorem displaced_append (w : Window) (a b : List Int) :
    w.displaced a ++ (w.extend a).displaced b = w.displaced (a ++ b) := by
  rw [displaced_eq, displaced_eq, displaced_eq, residents_extend, capacity_extend,
    rdrop_append_rdrop, List.append_assoc]

/-- Nothing is lost between what leaves and what stays. -/
theorem displaced_append_residents (w : Window) (vs : List Int) :
    w.displaced vs ++ (w.extend vs).residents = w.residents ++ vs := by
  rw [displaced_eq, residents_extend, rdrop_append_rtake]

end Window

end WindowedMean
