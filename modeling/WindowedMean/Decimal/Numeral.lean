import WindowedMean.Decimal.Double

/-! A *numeral* is a number as it is written: digits, perhaps a fraction, perhaps an exponent.

    The same decimal has many numerals. A `Layout` picks one: it says for which exponents of the
    first digit the point is put in its place, and whether a whole number keeps a fraction of zero;
    the other numbers are written with one digit before the point and an exponent with its sign. Where
    two decimals of the same length are equally near to a double, the layout picks one as well. -/

namespace WindowedMean.Decimal

/-- A written number. The exponent holds its own sign. -/
structure Numeral where
  negative : Bool
  whole : List Char
  fraction : Option (List Char)
  exponent : Option (Bool × List Char)
  deriving DecidableEq, Repr

namespace Numeral

/-- The characters of a numeral; an exponent always has its sign. -/
def chars (n : Numeral) : List Char :=
  (if n.negative then ['-'] else []) ++ n.whole
    ++ (match n.fraction with
        | none => []
        | some ds => '.' :: ds)
    ++ (match n.exponent with
        | none => []
        | some (negative, ds) => 'e' :: (if negative then '-' else '+') :: ds)

/-- The text of a numeral. -/
def text (n : Numeral) : String := .ofList n.chars

/-- The numeral of an integer. -/
def ofInt (n : Int) : Numeral := ⟨n < 0, Nat.toDigits 10 n.natAbs, none, none⟩

end Numeral

/-- The value of a row of decimal digits. -/
def digitsValue (ds : List Char) : Nat := Nat.ofDigitChars 10 ds 0

theorem digitsValue_toDigits (n : Nat) : digitsValue (Nat.toDigits 10 n) = n :=
  Nat.ofDigitChars_toDigits (by decide) (by decide)

/-- How a decimal is laid out: where the point stands in its place, whether a whole number keeps a
    fraction of zero, and which of two equally near decimals of the same length it is. -/
structure Layout where
  positional : Int → Bool
  keepsFraction : Bool
  tie : Tie

namespace Layout

/-- Never an exponent and no needless fraction; a tie goes away from zero. -/
def plain : Layout := ⟨fun _ => true, false, .away⟩

/-- The point in its place from the fifth digit after it to the sixteenth before it, and always a
    fraction; a tie goes to the even digit. -/
def wire : Layout := ⟨fun e => -5 ≤ e && e ≤ 15, true, .even⟩

/-- The digits of a decimal with the point in its place; `e` is the exponent of the first digit. -/
def place (l : Layout) (negative : Bool) (ds : List Char) (e : Int) : Numeral :=
  if e < 0 then
    ⟨negative, ['0'], some (List.replicate (-e - 1).toNat '0' ++ ds), none⟩
  else
    let whole := ds.take (e.toNat + 1) ++ List.replicate (e.toNat + 1 - ds.length) '0'
    match ds.drop (e.toNat + 1) with
    | [] => ⟨negative, whole, if l.keepsFraction then some ['0'] else none, none⟩
    | rest => ⟨negative, whole, some rest, none⟩

/-- The digits of a decimal with one digit before the point and an exponent. -/
def scientific (negative : Bool) (ds : List Char) (e : Int) : Numeral :=
  ⟨negative, ds.take 1, if ds.length ≤ 1 then none else some (ds.drop 1),
    some (e < 0, Nat.toDigits 10 e.natAbs)⟩

/-- The numeral of a decimal in this layout. -/
def numeral (l : Layout) (negative : Bool) (d : Digits) : Numeral :=
  let ds := Nat.toDigits 10 d.digits
  let e := d.exponent + ds.length - 1
  if l.positional e then l.place negative ds e else scientific negative ds e

/-- The numeral of a double; infinities and what is no number have none. -/
def ofDouble? (l : Layout) : Double → Option Numeral
  | .notANumber => none
  | .infinite _ => none
  | .zero negative => some (l.numeral negative ⟨0, 0⟩)
  | .finite negative x => some (l.numeral negative (shortest l.tie x))

end Layout

/-- The text of a double for people to read. -/
def display (x : Float) : String :=
  match Double.ofFloat x with
  | .notANumber => "NaN"
  | .infinite negative => if negative then "-inf" else "inf"
  | d => ((Layout.plain.ofDouble? d).map Numeral.text).getD ""

/-- The numeral of a double on the wire, if it has one. -/
def wireNumeral? (x : Float) : Option Numeral := Layout.wire.ofDouble? (.ofFloat x)

end WindowedMean.Decimal
