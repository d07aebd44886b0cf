import WindowedMean.Json.Quoted
import WindowedMean.Json.Number

/-! JSON text as a row of *tokens*.

    The lexer knows punctuation, the three words, numbers and strings; blanks between tokens are a
    space, a tab, a line feed or a carriage return, and they vanish here. It is strict: no comments,
    no leading zeros, no bare control characters. At the first place where no token starts it emits
    `bad` and stops, so a reader sees every token before the fault and then the fault.

    A string token may not be text: `\u` escapes name code units of 16 bits, and a surrogate without
    its partner is no character. Such a string is a token all the same, without a text. -/

namespace WindowedMean.Json

open Decimal (Numeral)

/-- One token. A string whose escapes hold a lone surrogate has no text. -/
inductive Token where
  | openObject
  | closeObject
  | openArray
  | closeArray
  | colon
  | comma
  | null
  | flag (b : Bool)
  | number (n : Numeral)
  | string (text : Option (List Char))
  | bad
  deriving DecidableEq, Repr

/-- The blanks that may stand between tokens. -/
def isBlank (c : Char) : Bool := c == ' ' || c == '\t' || c == '\n' || c == '\r'

/-- The token at the front and what follows it. -/
def front? : List Char → Option (Token × List Char)
  | '{' :: s => some (.openObject, s)
  | '}' :: s => some (.closeObject, s)
  | '[' :: s => some (.openArray, s)
  | ']' :: s => some (.closeArray, s)
  | ':' :: s => some (.colon, s)
  | ',' :: s => some (.comma, s)
  | 'n' :: 'u' :: 'l' :: 'l' :: s => some (.null, s)
  | 't' :: 'r' :: 'u' :: 'e' :: s => some (.flag true, s)
  | 'f' :: 'a' :: 'l' :: 's' :: 'e' :: s => some (.flag false, s)
  | '"' :: s => (pieces s).map fun (ps, rest) => (.string (assemble ps), rest)
  | s => (numeral? s).map fun (n, rest) => (.number n, rest)

theorem length_front_lt {s rest : List Char} {t : Token} (h : front? s = some (t, rest)) :
    rest.length < s.length := by
  unfold front? at h
  split at h
  all_goals try (simp only [Option.some.injEq, Prod.mk.injEq] at h; simp [← h.2]; done)
  all_goals try (simp only [Option.some.injEq, Prod.mk.injEq] at h; rw [← h.2]; simp only [List.length_cons]; omega)
  · obtain ⟨⟨ps, r⟩, hp, he⟩ := Option.map_eq_some_iff.1 h
    have := length_pieces_lt hp
    simp only [Prod.mk.injEq] at he
    simp only [← he.2, List.length_cons]
    omega
  · obtain ⟨⟨n, r⟩, hn, he⟩ := Option.map_eq_some_iff.1 h
    simp only [Prod.mk.injEq] at he
    rw [← he.2]
    exact length_numeral_lt hn

/-- The tokens of a text; `bad` ends the row where no token starts. -/
def lex (s : List Char) : List Token :=
  match _h : s.dropWhile isBlank with
  | [] => []
  | c :: r =>
    match _hf : front? (c :: r) with
    | none => [.bad]
    | some (t, rest) => t :: lex rest
termination_by s.length
decreasing_by
  have h₁ := length_front_lt _hf
  have h₂ := List.Sublist.length_le (List.dropWhile_sublist (p := isBlank) (l := s))
  rw [_h] at h₂
  omega

end WindowedMean.Json
