/-! The ranges that the quantities of this library live in.

    Events, totals and counts are integers of 64 bits with a *sign*; sizes, positions and node
    numbers are numbers of 64 bits without one. Nothing here wraps: a result that leaves its range
    is *refused* by whoever checks it, and until then all arithmetic is exact. -/

namespace WindowedMean

/-- The least integer of 64 bits with a sign. -/
def least : Int := -0x8000000000000000

/-- The greatest integer of 64 bits with a sign. -/
def greatest : Int := 0x7fffffffffffffff

/-- The greatest number of 64 bits without a sign. -/
def sizeLimit : Nat := 0xffffffffffffffff

/-- `n` is an integer of 64 bits with a sign. -/
def Fits (n : Int) : Prop := least ≤ n ∧ n ≤ greatest

instance : DecidablePred Fits := fun n => inferInstanceAs (Decidable (least ≤ n ∧ n ≤ greatest))

/-- The integer itself where it fits, nothing where it does not. -/
def narrow (n : Int) : Option Int := if Fits n then some n else none

theorem narrow_eq_some_iff {n m : Int} : narrow n = some m ↔ Fits n ∧ n = m := by
  unfold narrow
  split <;> simp_all

theorem fits_zero : Fits 0 := by decide

end WindowedMean
