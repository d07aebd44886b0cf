import WindowedMean.Decimal.Shortest

/-! The parts of a double, read off its 64 bits.

        sign (1)   exponent (11)   fraction (52)

    An exponent of all ones means an infinity or, with a fraction, no number at all; an exponent of
    zero means a number without the hidden leading bit. -/

namespace WindowedMean.Decimal

/-- What a double stands for. -/
inductive Double where
  | notANumber
  | infinite (negative : Bool)
  | zero (negative : Bool)
  | finite (negative : Bool) (x : Positive)
  deriving DecidableEq, Repr

/-- The parts of a pattern of 64 bits. -/
def Double.ofBits (bits : Nat) : Double :=
  let negative := bits / 0x8000000000000000 % 2 == 1
  let exponent : Nat := bits / 0x10000000000000 % 0x800
  let fraction := bits % 0x10000000000000
  if exponent = 2047 then
    if fraction = 0 then .infinite negative else .notANumber
  else if exponent = 0 then
    if fraction = 0 then .zero negative else .finite negative ⟨fraction, -1074, false⟩
  else
    .finite negative
      ⟨0x10000000000000 + fraction, (exponent : Int) - 1075, fraction == 0 && 1 < exponent⟩

/-- The parts of a double. -/
def Double.ofFloat (x : Float) : Double := .ofBits x.toBits.toNat

end WindowedMean.Decimal
