import WindowedMean.Text.Hex

/-! The inside of a JSON string.

    A string runs to the first quote that no backslash stands before. Inside it a backslash begins
    an escape, a short one for one character or `\u` for a code unit of 16 bits:

        \" \\ \/ \b \f \n \r \t   \uXXXX

    Two units that form a surrogate pair are one character together; a surrogate without its
    partner is no character, and then the string is well formed but holds no text. Writing escapes
    only what has to be escaped, so a written string reads back as its text. -/

namespace WindowedMean.Json

open Text (hexRow? hexDigit)

/-- A part of a string: a character as it stands or named by a short escape, or a code unit. -/
inductive Piece where
  | char (c : Char)
  | unit (n : Nat)
  deriving DecidableEq, Repr

/-- The character that a short escape stands for. -/
def shortEscape? : Char → Option Char
  | '"' => some '"'
  | '\\' => some '\\'
  | '/' => some '/'
  | 'b' => some '\x08'
  | 'f' => some '\x0c'
  | 'n' => some '\n'
  | 'r' => some '\r'
  | 't' => some '\t'
  | _ => none

/-- The parts of a string up to its closing quote, and what follows the quote. -/
def pieces : List Char → Option (List Piece × List Char)
  | [] => none
  | '"' :: rest => some ([], rest)
  | '\\' :: 'u' :: a :: b :: c :: d :: rest =>
    match hexRow? [a, b, c, d], pieces rest with
    | some n, some (ps, rest') => some (.unit n :: ps, rest')
    | _, _ => none
  | '\\' :: c :: rest =>
    match shortEscape? c, pieces rest with
    | some e, some (ps, rest') => some (.char e :: ps, rest')
    | _, _ => none
  | c :: rest =>
    if c.toNat < 0x20 || c == '\\' then none
    else
      match pieces rest with
      | some (ps, rest') => some (.char c :: ps, rest')
      | none => none

theorem length_pieces_lt {s : List Char} {ps : List Piece} {rest : List Char}
    (h : pieces s = some (ps, rest)) : rest.length < s.length := by
  fun_induction pieces s generalizing ps rest <;> simp only [List.length_cons, List.length_nil] <;> grind

/-- The first half of a pair. -/
def isHigh (n : Nat) : Bool := 0xD800 ≤ n && n < 0xDC00

/-- The second half of a pair. -/
def isLow (n : Nat) : Bool := 0xDC00 ≤ n && n < 0xE000

/-- The characters of a string; pairs of code units become one character, a lone half is none. -/
def assemble : List Piece → Option (List Char)
  | [] => some []
  | .char c :: ps => (assemble ps).map (c :: ·)
  | .unit n :: ps =>
    if isHigh n then
      match ps with
      | .unit m :: ps' =>
        if isLow m then
          (assemble ps').map (Char.ofNat (0x10000 + (n - 0xD800) * 0x400 + (m - 0xDC00)) :: ·)
        else none
      | _ => none
    else if isLow n then none
    else (assemble ps).map (Char.ofNat n :: ·)

/-- A character as it is written inside a string. -/
def escape (c : Char) : List Char :=
  if c == '"' then ['\\', '"']
  else if c == '\\' then ['\\', '\\']
  else if c == '\x08' then ['\\', 'b']
  else if c == '\x0c' then ['\\', 'f']
  else if c == '\n' then ['\\', 'n']
  else if c == '\r' then ['\\', 'r']
  else if c == '\t' then ['\\', 't']
  else if c.toNat < 0x20 then
    ['\\', 'u', '0', '0', hexDigit (c.toNat / 16), hexDigit (c.toNat % 16)]
  else [c]

/-- A text between quotes. -/
def quote (cs : List Char) : List Char := '"' :: cs.flatMap escape ++ ['"']

end WindowedMean.Json
