import WindowedMean.Text.Hex

/-! Single values of a TOML document: integers, truth values and texts.

    An integer is decimal with a sign if one likes, or hexadecimal, octal or binary without one; an
    underscore may stand between two digits. A text has one of four forms:

        "with \n escapes"        'as it stands'
        """several lines"""      '''several lines'''

    A form for several lines leaves out a line break right at its start, and up to two quotes may
    stand in front of its closing ones. In the form with escapes a backslash at the end of a line
    takes the blanks and line breaks after it away. Control characters other than a tab stand in no
    text, and a carriage return only in front of a line feed. -/

namespace WindowedMean.Toml

open Text (hexRow?)

/-- A single value. -/
inductive Scalar where
  | integer (n : Int)
  | truth (b : Bool)
  | text (s : String)
  deriving DecidableEq, Repr

/-- A blank inside a line. -/
def isSpace (c : Char) : Bool := c == ' ' || c == '\t'

/-- A character that may stand in texts and comments. -/
def isPlain (c : Char) : Bool := c == '\t' || (0x20 ≤ c.toNat && c.toNat != 0x7F)

/-- What follows a line break, if the text begins with one. -/
def lineBreak? : List Char → Option (List Char)
  | '\n' :: s => some s
  | '\r' :: '\n' :: s => some s
  | _ => none

/-- The text without a line break at its start. -/
def dropBreak (s : List Char) : List Char := (lineBreak? s).getD s

/-! ### Texts -/

/-- The character with a code point written in hexadecimal, if there is one. -/
def codePoint? (digits : List Char) : Option Char :=
  match hexRow? digits with
  | some n => if n.isValidChar then some (Char.ofNat n) else none
  | none => none

/-- The character that a short escape stands for. -/
def shortEscape? : Char → Option Char
  | 'b' => some '\x08'
  | 't' => some '\t'
  | 'n' => some '\n'
  | 'f' => some '\x0c'
  | 'r' => some '\r'
  | 'e' => some '\x1b'
  | '"' => some '"'
  | '\\' => some '\\'
  | _ => none

/-- Only blanks stand before the next line break, and there is one. -/
def endsLine (s : List Char) : Bool := (lineBreak? (s.dropWhile isSpace)).isSome

/-- One character in front of a text and what follows it. -/
def cons? (c : Char) : Option (List Char × List Char) → Option (List Char × List Char)
  | some (cs, rest) => some (c :: cs, rest)
  | none => none

/-- The inside of a text with escapes, up to its closing quotes, and what follows them. `many` says
    that it may have several lines, `joining` that blanks and line breaks are being taken away. -/
def escaped (many joining : Bool) : List Char → Option (List Char × List Char)
  | [] => none
  | '"' :: '"' :: '"' :: '"' :: '"' :: rest =>
    if many then some (['"', '"'], rest) else some ([], '"' :: '"' :: '"' :: '"' :: rest)
  | '"' :: '"' :: '"' :: '"' :: rest =>
    if many then some (['"'], rest) else some ([], '"' :: '"' :: '"' :: rest)
  | '"' :: '"' :: '"' :: rest => if many then some ([], rest) else some ([], '"' :: '"' :: rest)
  | '"' :: rest => if many then cons? '"' (escaped many false rest) else some ([], rest)
  | '\\' :: 'x' :: a :: b :: rest =>
    match codePoint? [a, b] with
    | some c => cons? c (escaped many false rest)
    | none => none
  | '\\' :: 'u' :: a :: b :: c :: d :: rest =>
    match codePoint? [a, b, c, d] with
    | some c => cons? c (escaped many false rest)
    | none => none
  | '\\' :: 'U' :: a :: b :: c :: d :: e :: f :: g :: h :: rest =>
    match codePoint? [a, b, c, d, e, f, g, h] with
    | some c => cons? c (escaped many false rest)
    | none => none
  | '\\' :: c :: rest =>
    match shortEscape? c with
    | some e => cons? e (escaped many false rest)
    | none =>
      if many && endsLine (c :: rest) then escaped many true (c :: rest) else none
  | '\r' :: '\n' :: rest =>
    if !many then none
    else if joining then escaped many true rest
    else cons? '\r' (cons? '\n' (escaped many false rest))
  | '\n' :: rest =>
    if !many then none
    else if joining then escaped many true rest
    else cons? '\n' (escaped many false rest)
  | c :: rest =>
    if joining && isSpace c then escaped many true rest
    else if isPlain c && c != '\\' then cons? c (escaped many false rest)
    else none

/-- The inside of a text that stands as it is, up to its closing quotes, and what follows them. -/
def literal (many : Bool) : List Char → Option (List Char × List Char)
  | [] => none
  | '\'' :: '\'' :: '\'' :: '\'' :: '\'' :: rest =>
    if many then some (['\'', '\''], rest) else some ([], '\'' :: '\'' :: '\'' :: '\'' :: rest)
  | '\'' :: '\'' :: '\'' :: '\'' :: rest =>
    if many then some (['\''], rest) else some ([], '\'' :: '\'' :: '\'' :: rest)
  | '\'' :: '\'' :: '\'' :: rest =>
    if many then some ([], rest) else some ([], '\'' :: '\'' :: rest)
  | '\'' :: rest => if many then cons? '\'' (literal many rest) else some ([], rest)
  | '\r' :: '\n' :: rest => if many then cons? '\r' (cons? '\n' (literal many rest)) else none
  | '\n' :: rest => if many then cons? '\n' (literal many rest) else none
  | c :: rest => if isPlain c then cons? c (literal many rest) else none

/-- A text on one line in either form, and what follows it. -/
def lineText? : List Char → Option (List Char × List Char)
  | '"' :: s => escaped false false s
  | '\'' :: s => literal false s
  | _ => none

/-- A text in any form, and what follows it. -/
def text? : List Char → Option (List Char × List Char)
  | '"' :: '"' :: '"' :: s => escaped true false (dropBreak s)
  | '\'' :: '\'' :: '\'' :: s => literal true (dropBreak s)
  | s => lineText? s

/-! ### Integers and truth values -/

/-- A row of digits without the underscores, each of which stands between two of them. -/
def ungrouped? (ok : Char → Bool) : List Char → Option (List Char)
  | [] => none
  | [c] => if ok c then some [c] else none
  | c :: '_' :: rest => if ok c then (ungrouped? ok rest).map (c :: ·) else none
  | c :: rest => if ok c then (ungrouped? ok rest).map (c :: ·) else none

/-- The value of a row of digits in a base, with underscores between them. -/
def based? (base : Nat) (s : List Char) : Option Nat :=
  let ok : Char → Bool := fun c => ((Text.hexValue? c).map fun d => decide (d < base)).getD false
  (ungrouped? ok s).map fun ds => ds.foldl (fun n c => base * n + (Text.hexValue? c).getD 0) 0

/-- The value of a decimal without its sign; a leading zero stands alone. -/
def decimal? : List Char → Option Nat
  | ['0'] => some 0
  | '0' :: _ => none
  | s => based? 10 s

/-- The integer that a word is. -/
def integer? : List Char → Option Int
  | '0' :: 'x' :: s => (based? 16 s).map Int.ofNat
  | '0' :: 'o' :: s => (based? 8 s).map Int.ofNat
  | '0' :: 'b' :: s => (based? 2 s).map Int.ofNat
  | '+' :: s => (decimal? s).map Int.ofNat
  | '-' :: s => (decimal? s).map fun n => -n
  | s => (decimal? s).map Int.ofNat

/-- A character of a word, which runs to a blank, a comment or the end of the line. -/
def isWord (c : Char) : Bool := !(isSpace c || c == '#' || c == '\n' || c == '\r')

/-- The value that a word is. -/
def ofWord? (w : List Char) : Option Scalar :=
  if w = "true".toList then some (.truth true)
  else if w = "false".toList then some (.truth false)
  else (integer? w).map .integer

/-- The value at the front and what follows it. -/
def scalar? (s : List Char) : Option (Scalar × List Char) :=
  match s with
  | '"' :: _ | '\'' :: _ => (text? s).map fun (cs, rest) => (.text (.ofList cs), rest)
  | _ => (ofWord? (s.takeWhile isWord)).map fun v => (v, s.dropWhile isWord)

/-! ### Every value takes something from the front -/

theorem cons?_eq_some_iff {c : Char} {x : Option (List Char × List Char)} {cs rest : List Char} :
    cons? c x = some (cs, rest) ↔ ∃ ds, x = some (ds, rest) ∧ cs = c :: ds := by
  unfold cons?
  split <;> grind

theorem length_escaped_le {many joining : Bool} {s cs rest : List Char}
    (h : escaped many joining s = some (cs, rest)) : rest.length ≤ s.length := by
  fun_induction escaped many joining s generalizing cs rest <;>
    simp only [List.length_cons, List.length_nil] <;> grind [cons?_eq_some_iff]

theorem length_literal_le {many : Bool} {s cs rest : List Char}
    (h : literal many s = some (cs, rest)) : rest.length ≤ s.length := by
  fun_induction literal many s generalizing cs rest <;>
    simp only [List.length_cons, List.length_nil] <;> grind [cons?_eq_some_iff]

end WindowedMean.Toml
