import WindowedMean.Text.Hex

/-! Percent coding: `%` and two hexadecimal digits stand for one byte.

    Bytes that are not coded stand for themselves, and so does a `%` that no two digits follow. The
    bytes are a text if they are valid UTF-8. -/

namespace WindowedMean.Text

/-- The bytes of a coded row of characters; a character that is not coded gives its own bytes. -/
def percentBytes : List Char → List UInt8
  | '%' :: a :: b :: rest =>
    match hexRow? [a, b] with
    | some n => n.toUInt8 :: percentBytes rest
    | none => 37 :: percentBytes (a :: b :: rest)
  | c :: rest => (String.singleton c).toUTF8.toList ++ percentBytes rest
  | [] => []

/-- The text that is coded, if the bytes are one. -/
def percentDecode? (s : String) : Option String :=
  String.fromUTF8? (.mk (percentBytes s.toList).toArray)

end WindowedMean.Text
