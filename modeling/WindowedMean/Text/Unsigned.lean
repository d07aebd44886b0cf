import WindowedMean.Bounds

/-! Reading a number of 64 bits without a sign.

    A number is one or more decimal digits, with a plus sign in front if one likes. A text that is
    no such number has one fault, the first from the left; a number past the limit shows at the
    digit that takes it there. -/

namespace WindowedMean.Text

/-- Why a text is no number. -/
inductive NumberFault where
  | empty
  | invalidDigit
  | tooLarge
  deriving DecidableEq, Repr

/-- What an operator reads about the fault. -/
def NumberFault.message : NumberFault → String
  | .empty => "cannot parse integer from empty string"
  | .invalidDigit => "invalid digit found in string"
  | .tooLarge => "number too large to fit in target type"

/-- The number whose leading digits are worth `n` and whose other digits follow. -/
def digitsFrom (n : Nat) : List Char → Except NumberFault Nat
  | [] => .ok n
  | c :: cs =>
    if c.isDigit then
      let n' := 10 * n + (c.toNat - '0'.toNat)
      if n' ≤ sizeLimit then digitsFrom n' cs else .error .tooLarge
    else .error .invalidDigit

/-- The number that a row of characters is. -/
def unsignedChars : List Char → Except NumberFault Nat
  | [] => .error .empty
  | ['+'] => .error .invalidDigit
  | '+' :: cs => digitsFrom 0 cs
  | cs => digitsFrom 0 cs

/-- The number that a text is. -/
def unsigned (s : String) : Except NumberFault Nat := unsignedChars s.toList

end WindowedMean.Text
