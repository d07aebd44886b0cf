import WindowedMean.Bounds
import WindowedMean.Decimal.Numeral

/-! Numerals that are too large to be read as a double.

    A numeral is read in two steps, and each of them rounds:

        head          as many leading digits as fit into 64 bits, rounded to a double
        power of ten  the exponent, moved by the digits that the head left out or took from behind
                      the point, as a double

    The numeral *overflows* if their product rounds to an infinity, or if the power is greater than
    any double. So a numeral close to the greatest double may overflow although it is below it. All
    of this is decided between natural numbers. -/

namespace WindowedMean.Decimal

/-- The nearest number of at most 53 binary digits; a tie goes to the even one. -/
def nearest (n : Nat) : Nat :=
  let unit := Nat.pow 2 (n.log2 - 52)
  let low := n / unit
  let rest := n % unit
  (if unit < 2 * rest || (2 * rest == unit && low % 2 == 1) then low + 1 else low) * unit

/-- The least number that rounds to an infinity: half a step above the greatest double. -/
def infinityBound : Nat := 0x3fffffffffffff * Nat.pow 2 970

/-- The greatest exponent of a power of ten that is a double. -/
def greatestPower : Nat := 308

/-- Takes digits behind others that are worth `n` while the value fits into 64 bits: the value, and
    the digits left over. -/
def takeHead (n : Nat) : List Char → Nat × List Char
  | [] => (n, [])
  | c :: cs =>
    if 10 * n + digitsValue [c] ≤ sizeLimit then takeHead (10 * n + digitsValue [c]) cs
    else (n, c :: cs)

namespace Numeral

/-- The exponent that is written. -/
def writtenExponent (n : Numeral) : Int :=
  match n.exponent with
  | none => 0
  | some (negative, ds) => if negative then -(digitsValue ds : Int) else digitsValue ds

/-- The head of a numeral, and the exponent of the power of ten that goes with it. -/
def head (n : Numeral) : Digits :=
  let (whole, skipped) := takeHead 0 n.whole
  let behind := n.fraction.getD []
  let (value, left) := takeHead whole behind
  ⟨value, n.writtenExponent + skipped.length + left.length - behind.length⟩

/-- The numeral is too large to be read as a double. -/
def overflows (n : Numeral) : Bool :=
  let ⟨value, e⟩ := n.head
  value != 0 && 0 ≤ e
    && (greatestPower < e || infinityBound ≤ nearest value * nearest (Nat.pow 10 e.toNat))

end Numeral

end WindowedMean.Decimal
