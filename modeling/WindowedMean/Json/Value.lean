import WindowedMean.Json.Quoted
import WindowedMean.Decimal.Numeral

/-! JSON values and the one way they are written here: compact, with fields in their order.

    Numbers are kept as numerals, so an integer is written with all its digits and a double with
    the digits that its layout chose. -/

namespace WindowedMean.Json

open Decimal (Numeral)

/-- A JSON value. The fields of an object keep the order they are written in. -/
inductive Value where
  | null
  | flag (b : Bool)
  | number (n : Numeral)
  | string (s : String)
  | array (items : List Value)
  | object (fields : List (String × Value))

namespace Value

/-- An integer. -/
def int (n : Int) : Value := .number (.ofInt n)

/-- A size, a position or a node number. -/
def nat (n : Nat) : Value := .int n

/-- A double; infinities and what is no number are null. -/
def float (x : Float) : Value :=
  match Decimal.wireNumeral? x with
  | some n => .number n
  | none => .null

/-- A double that may be missing. -/
def float? : Option Float → Value
  | some x => .float x
  | none => .null

/-- The characters between brackets, with a comma between any two items. -/
def commas : List (List Char) → List Char
  | [] => []
  | [c] => c
  | c :: cs => c ++ ',' :: commas cs

mutual

/-- The characters of a value. -/
def chars : Value → List Char
  | .null => ['n', 'u', 'l', 'l']
  | .flag true => ['t', 'r', 'u', 'e']
  | .flag false => ['f', 'a', 'l', 's', 'e']
  | .number n => n.chars
  | .string s => quote s.toList
  | .array items => '[' :: commas (itemChars items) ++ [']']
  | .object fields => '{' :: commas (fieldChars fields) ++ ['}']

/-- The characters of each item. -/
def itemChars : List Value → List (List Char)
  | [] => []
  | v :: vs => chars v :: itemChars vs

/-- The characters of each field: its name, a colon and its value. -/
def fieldChars : List (String × Value) → List (List Char)
  | [] => []
  | (name, v) :: fields => (quote name.toList ++ ':' :: chars v) :: fieldChars fields

end

/-- The text of a value. -/
def text (v : Value) : String := .ofList v.chars

end Value

end WindowedMean.Json
