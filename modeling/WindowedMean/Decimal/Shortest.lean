/-! The *shortest decimal* that reads back as a given double.

    A finite positive double is `m · 2 ^ q`. The reals that round to it form an interval around it,
    from half a step below to half a step above; the ends belong to it exactly when `m` is even,
    and the step below is half as wide where `m` is the least mantissa of its binade. Of the grids

        … 10 ^ 2 · ℤ   10 · ℤ   ℤ   10 ^ -1 · ℤ   10 ^ -2 · ℤ …

    the coarsest one with a point in the interval gives the fewest digits. If a grid has a point in
    it, one of the double's two neighbours on that grid is such a point, so only these are tried;
    of two, the nearer one is taken, and of two equally near ones the one that the *tie rule* says.
    All comparisons are between natural numbers. -/

namespace WindowedMean.Decimal

/-- A positive decimal `digits · 10 ^ exponent`. -/
structure Digits where
  digits : Nat
  exponent : Int
  deriving DecidableEq, Repr

/-- A positive double `mantissa · 2 ^ exponent`; `binade` says that the step below it is half as
    wide as the step above. -/
structure Positive where
  mantissa : Nat
  exponent : Int
  binade : Bool
  deriving DecidableEq, Repr

/-- Which of two equally near points is taken: the even one, or the one further from zero. -/
inductive Tie where
  | even
  | away
  deriving DecidableEq, Repr

/-- The factors by which a quarter step of the double and a point of the grid `10 ^ k · ℤ` are
    multiplied to be compared as natural numbers. -/
def scales (x : Positive) (k : Int) : Nat × Nat :=
  (Nat.pow 2 (x.exponent - 2).toNat * Nat.pow 10 (-k).toNat,
    Nat.pow 2 (2 - x.exponent).toNat * Nat.pow 10 k.toNat)

/-- The point `d · 10 ^ k` lies in the interval of reals that round to the double. -/
def inside (x : Positive) (k : Int) (d : Nat) : Bool :=
  let (step, unit) := scales x k
  let below := if x.binade then 1 else 2
  let low := (4 * x.mantissa - below) * step
  let high := (4 * x.mantissa + 2) * step
  if x.mantissa % 2 = 0 then low ≤ d * unit && d * unit ≤ high
  else low < d * unit && d * unit < high

/-- The double's lower neighbour on the grid `10 ^ k · ℤ`, in units of the grid. -/
def floorOn (x : Positive) (k : Int) : Nat :=
  let (step, unit) := scales x k
  4 * x.mantissa * step / unit

/-- The lower of two equally near points is taken; `d` is that one, in units of the grid. -/
def Tie.takesLower (tie : Tie) (d : Nat) : Bool :=
  match tie with
  | .even => d % 2 == 0
  | .away => false

/-- The lower neighbour on the grid is taken rather than the upper one. -/
def lowerNearer (tie : Tie) (x : Positive) (k : Int) : Bool :=
  let (step, unit) := scales x k
  let rest := 4 * x.mantissa * step % unit
  2 * rest < unit || (2 * rest == unit && tie.takesLower (floorOn x k))

/-- The double's neighbour on a grid that reads back as the double, if there is one. -/
def hit (tie : Tie) (x : Positive) (k : Int) : Option Nat :=
  let d := floorOn x k
  match inside x k d, inside x k (d + 1) with
  | true, true => some (if lowerNearer tie x k then d else d + 1)
  | true, false => some d
  | false, true => some (d + 1)
  | false, false => none

/-- The first hit on the grids from `10 ^ (n - 343)` downwards; the last one is fine enough for
    every double. -/
def search (tie : Tie) (x : Positive) : Nat → Digits
  | 0 => ⟨floorOn x (-343), -343⟩
  | n + 1 =>
    match hit tie x (n + 1 - 343) with
    | some d => ⟨d, n + 1 - 343⟩
    | none => search tie x n

/-- The shortest decimal that reads back as the double, the nearest one of that length. -/
def shortest (tie : Tie) (x : Positive) : Digits := search tie x (309 + 343)

end WindowedMean.Decimal
